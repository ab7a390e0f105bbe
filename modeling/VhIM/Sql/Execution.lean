import VhIM.Sql.Programs

/-! # The store computes what it says

Run against the tables, the programs of the store return what the functions of
`SqlCh` return, leave the tables those leave, and send the queries of
`Queries`: call by call, and so in every history of calls. -/
namespace VhIM.Sql.Mysql
open VhIM.Lib VhIM.Lib.Program VhIM.Utility
open VhIM.Server (ServerUserInfo)
open VhIM.Client (atoi)

variable {α β : Type}

def sent (x : Exchange Reply) : Option Query :=
  match x.1 with
  | .query q => some q
  | _ => none

variable {ok : SqlStep → Bool} {lib : Externals} {s s' s'' : Side} {a : α} {b : β}
  {qs qs' : List Query}

variable (ok lib) in
/-- Run from `s`, the program returns `a` and leaves `s'`; `qs` are the queries
it sends. -/
def Yields (p : Program Reply α) (s : Side) (a : α) (s' : Side) (qs : List Query) : Prop :=
  ∃ x, p.run (answer ok lib) s = (some a, s', x) ∧ x.filterMap sent = qs

theorem yields_done : Yields ok lib (.done a) s a s [] := ⟨[], rfl, rfl⟩

theorem Yields.call {c : Call} {next : Reply c → Program Reply α}
    (h : Yields ok lib (next (answer ok lib c s).1) (answer ok lib c s).2 a s' qs) :
    Yields ok lib (.call c next) s a s' ((sent ⟨c, (answer ok lib c s).1⟩).toList ++ qs) := by
  obtain ⟨x, hx, rfl⟩ := h
  refine ⟨⟨c, (answer ok lib c s).1⟩ :: x, ?_, ?_⟩
  · rw [run_call, hx]
  · rw [List.filterMap_cons]
    cases sent ⟨c, (answer ok lib c s).1⟩ <;> rfl

theorem Yields.bind {p : Program Reply α} {f : α → Program Reply β}
    (h : Yields ok lib p s a s' qs)
    (hf : Yields ok lib (f a) s' b s'' qs') : Yields ok lib (p >>= f) s b s'' (qs ++ qs') := by
  obtain ⟨x, hx, rfl⟩ := h
  obtain ⟨y, hy, rfl⟩ := hf
  refine ⟨x ++ y, ?_, List.filterMap_append⟩
  rw [run_bind hx, hy]

/-! ### The shared parts -/

/-- What the connection attempt goes on with. -/
theorem Yields.realConnect {next : Bool → Program Reply α}
    (h : Yields ok lib (next (ok .connect)) s a s' qs) :
    Yields ok lib (mysql .init >>= fun _ => mysql .realConnect >>= next) s a s' qs :=
  .call (.call h)

theorem Yields.close {p : Program Reply α} (h : Yields ok lib p s a s' qs) :
    Yields ok lib (p >>= fun r => mysql .close >>= fun _ => pure r) s a s' qs := by
  have hclose : Yields ok lib (mysql .close >>= fun _ => pure a) s' a s' [] := .call yields_done
  have hclosed := h.bind (f := fun r => mysql .close >>= fun _ => pure r) hclose
  rwa [List.append_nil] at hclosed

theorem connected_refused {failed : α} {body : Program Reply α} (h : ok .connect = false) :
    Yields ok lib (connected failed body) s failed s [] := by
  refine .realConnect ?_
  rw [h]
  exact .call (.call yields_done)

theorem Yields.connected {failed : α} {body : Program Reply α} (h : ok .connect = true)
    (hbody : Yields ok lib body s a s' qs) : Yields ok lib (connected failed body) s a s' qs := by
  refine .realConnect ?_
  rw [h]
  exact hbody.close

theorem tryQuery_failed {q : Query} {failed : α} {next : Program Reply α}
    (h : (if ok (.query s.queries) then effect s.db q else none) = none) :
    Yields ok lib (tryQuery q failed next) s failed { s with queries := s.queries + 1 } [q] := by
  simp only [tryQuery, perform_bind, pure_eq]
  have hreply : s.query ok lib q = (false, { s with queries := s.queries + 1 }) := by
    rw [Side.query, h]
  have herror : Yields ok lib
      (if (s.query ok lib q).1 then next else .call .error fun _ => .done failed)
      (s.query ok lib q).2 failed { s with queries := s.queries + 1 } [] := by
    rw [hreply]
    exact .call yields_done
  exact .call herror

theorem Yields.tryQuery {q : Query} {failed : α} {next : Program Reply α} {db : Database}
    (h : ok (.query s.queries) = true) (hdb : effect s.db q = some db)
    (hnext : Yields ok lib next
      { s with db := db, queries := s.queries + 1, rows := selected lib s.db q } a s' qs) :
    Yields ok lib (tryQuery q failed next) s a s' (q :: qs) := by
  simp only [Mysql.tryQuery, perform_bind, pure_eq]
  have hreply : s.query ok lib q = (true,
      { s with db := db, queries := s.queries + 1, rows := selected lib s.db q }) := by
    rw [Side.query, h, if_pos rfl, hdb]
  have hrest : Yields ok lib
      (if (s.query ok lib q).1 then next else .call .error fun _ => .done failed)
      (s.query ok lib q).2 a s' qs := by
    rw [hreply]
    exact hnext
  exact .call hrest

theorem Yields.withResult {body : Program Reply α} (h : Yields ok lib body s a s' qs) :
    Yields ok lib (withResult body) s a { s' with rows := [] } qs := by
  simp only [Mysql.withResult, perform_bind, pure_eq]
  have hfreed : Yields ok lib (.call .freeResult fun _ => .done a) s' a { s' with rows := [] } [] :=
    .call yields_done
  have hbody := h.bind (f := fun r => .call .freeResult fun _ => .done r) hfreed
  rw [List.append_nil] at hbody
  exact .call hbody

/-- What a fetch goes on with. -/
theorem Yields.fetch {next : Option Row → Program Reply α}
    (h : Yields ok lib (next (if ok (.fetch s.fetches) then s.rows.head? else none))
      { s with fetches := s.fetches + 1, rows := s.rows.tail } a s' qs) :
    Yields ok lib (mysql .fetchRow >>= next) s a s' qs := .call h

theorem fetchExists_yields {yes no missing : α} {there : Bool} (h : s.rows = existsRow there) :
    Yields ok lib (fetchExists yes no missing) s
      (if !ok (.fetch s.fetches) then missing else if there then yes else no)
      { s with fetches := s.fetches + 1, rows := [] } [] := by
  refine .fetch ?_
  rw [h]
  cases ok (.fetch s.fetches) with
  | false => exact yields_done
  | true => cases there <;> exact yields_done

/-! ### What a column of digits says -/

theorem toNat_digit {c : Char} (h : c.isDigit = true) : c.val.toUInt8.toNat = c.toNat := by
  have hbounds := isDigit_bounds h
  rw [UInt32.toNat_toUInt8]
  exact Nat.mod_eq_of_lt (by omega)

theorem denotes_text (n : Nat) : Client.denotes (text (toString n)) = n := by
  have hdigits : ∀ value, ∀ c ∈ Nat.toDigits 10 n,
      10 * value + (c.val.toUInt8.toNat - 48) = 10 * value + (c.toNat - '0'.toNat) := by
    intro value c hc
    rw [toNat_digit (Nat.isDigit_of_mem_toDigits (by decide) (by decide) hc)]
    rfl
  rw [← Client.foldl_eq_denotes, text_nat, List.foldl_map, List.foldl_ext _ _ _ hdigits,
    ← Nat.ofDigitChars_eq_foldl, Nat.ofDigitChars_toDigits (by decide) (by decide)]

theorem atoi_text {n : Nat} (h : n < 2 ^ 63) : atoi (text (toString n)) = Int32.ofNat n := by
  rw [atoi, Client.foldl_eq_denotes, denotes_text, min_eq_left (by omega)]

theorem atoi_decimal {i : Int32} (h : 0 < i.toInt) : atoi (decimal i) = i := by
  have hlt := i.toInt_lt
  obtain ⟨n, hn⟩ := Int.eq_ofNat_of_zero_le h.le
  have hdecimal : decimal i = text (toString n) := by
    rw [decimal, hn]
    rfl
  rw [hdecimal, atoi_text (by omega)]
  exact Int32.toInt_inj.mp ((Int32.toInt_ofNat_of_lt (by omega)).trans hn.symm)

theorem fetchInfos_yields {infos : List ServerUserInfo} {n : Nat} (hrows : s.rows = infoRows infos)
    (hpos : ∀ info ∈ infos, 0 < info.id.toInt) (hn : infos.length < n)
    (out : Vstack ServerUserInfo) :
    ∃ s', Yields ok lib (fetchInfos n out) s (out.pushAll (fetchRows ok s.fetches infos))
      s' [] ∧ s'.db = s.db := by
  induction infos generalizing n s out with
  | nil =>
    obtain ⟨n, rfl⟩ := Nat.exists_eq_add_one_of_ne_zero (Nat.ne_of_gt hn)
    refine ⟨{ s with fetches := s.fetches + 1, rows := s.rows.tail }, ?_, rfl⟩
    refine .fetch ?_
    rw [hrows]
    cases ok (.fetch s.fetches) <;> exact yields_done
  | cons info infos ih =>
    obtain ⟨n, rfl⟩ := Nat.exists_eq_add_one_of_ne_zero (Nat.ne_of_gt (Nat.zero_lt_of_lt hn))
    cases hok : ok (.fetch s.fetches) with
    | false =>
      refine ⟨{ s with fetches := s.fetches + 1, rows := s.rows.tail }, .fetch ?_, rfl⟩
      rw [hok, fetchRows, hok]
      exact yields_done
    | true =>
      obtain ⟨s', hrest, hdb⟩ := @ih { s with fetches := s.fetches + 1, rows := infoRows infos } n
        rfl (fun info hinfo => hpos info (.tail _ hinfo)) (Nat.lt_of_succ_lt_succ hn)
        (out.push info)
      refine ⟨s', .fetch ?_, hdb⟩
      rw [hok, hrows, fetchRows, hok]
      have hid := atoi_decimal (hpos info (.head _))
      change Yields ok lib (fetchInfos n (out.push ⟨atoi (decimal info.id), info.username⟩))
        { s with fetches := s.fetches + 1, rows := infoRows infos } _ s' []
      rw [hid]
      exact hrest

/-! ### Rules -/

variable {r r' : α × Database}

variable (ok lib) in
/-- Run from `s` the program returns `r.1` and leaves the tables `r.2`. -/
def Computes (p : Program Reply α) (s : Side) (r : α × Database) (qs : List Query) : Prop :=
  ∃ s', Yields ok lib p s r.1 s' qs ∧ s'.db = r.2

theorem computes_done : Computes ok lib (.done a) s (a, s.db) [] := ⟨s, yields_done, rfl⟩

theorem Computes.map {p : Program Reply α} (h : Computes ok lib p s r qs) (f : α → β) :
    Computes ok lib (p >>= fun a => pure (f a)) s (f r.1, r.2) qs := by
  obtain ⟨s', hs', hdb⟩ := h
  have hmap := hs'.bind (f := fun a => pure (f a)) yields_done
  rw [List.append_nil] at hmap
  exact ⟨s', hmap, hdb⟩

theorem Computes.connected {failed : α} {body : Program Reply α}
    (h : Computes ok lib body s r qs) : Computes ok lib (connected failed body) s
      (if !ok .connect then (failed, s.db) else r) (if !ok .connect then [] else qs) := by
  cases hconnect : ok .connect with
  | false => exact ⟨_, connected_refused hconnect, rfl⟩
  | true =>
    obtain ⟨s', hs', hdb⟩ := h
    exact ⟨s', .connected hconnect hs', hdb⟩

theorem Computes.tryQuery {q : Query} {failed : α} {next : Program Reply α} {db : Database}
    (heffect : effect s.db q = some db)
    (h : Computes ok lib next
      { s with db := db, queries := s.queries + 1, rows := selected lib s.db q } r qs) :
    Computes ok lib (tryQuery q failed next) s
      (if !ok (.query s.queries) then (failed, s.db) else r)
      (q :: if !ok (.query s.queries) then [] else qs) := by
  cases hquery : ok (.query s.queries) with
  | false => exact ⟨_, tryQuery_failed (by rw [hquery]; rfl), rfl⟩
  | true =>
    obtain ⟨s', hs', hdb⟩ := h
    exact ⟨s', .tryQuery hquery heffect hs', hdb⟩

/-- A query after which there is no other. -/
theorem Computes.lastQuery {q : Query} {failed : α} {next : Program Reply α} {db : Database}
    (heffect : effect s.db q = some db)
    (h : Computes ok lib next
      { s with db := db, queries := s.queries + 1, rows := selected lib s.db q } r []) :
    Computes ok lib (Mysql.tryQuery q failed next) s
      (if !ok (.query s.queries) then (failed, s.db) else r) [q] := by
  have hquery : Computes ok lib (Mysql.tryQuery q failed next) s _ _ := h.tryQuery heffect
  rwa [ite_self] at hquery

/-- A look at a row of `SELECT EXISTS(…)`, and what depends on it. -/
theorem computes_exists {yes no missing : α} {f : α → Program Reply β} {there : Prop}
    [Decidable there] {rmissing ryes rno : β × Database} {qmissing qyes qno : List Query}
    (hrows : s.rows = existsRow (decide there))
    (hmissing : Computes ok lib (f missing)
      { s with fetches := s.fetches + 1, rows := [] } rmissing qmissing)
    (hyes : Computes ok lib (f yes) { s with fetches := s.fetches + 1, rows := [] } ryes qyes)
    (hno : Computes ok lib (f no) { s with fetches := s.fetches + 1, rows := [] } rno qno) :
    Computes ok lib (withResult (fetchExists yes no missing) >>= f) s
      (if !ok (.fetch s.fetches) then rmissing else if there then ryes else rno)
      (if !ok (.fetch s.fetches) then qmissing else if there then qyes else qno) := by
  have hfetch : Yields ok lib (withResult (fetchExists yes no missing)) s _ _ _ :=
    (fetchExists_yields hrows).withResult
  cases hok : ok (.fetch s.fetches) with
  | false =>
    obtain ⟨s', hs', hdb⟩ := hmissing
    rw [hok] at hfetch
    exact ⟨s', hfetch.bind hs', hdb⟩
  | true =>
    rw [hok] at hfetch
    by_cases hthere : there
    · obtain ⟨s', hs', hdb⟩ := hyes
      simp only [hthere, decide_true] at hfetch
      simp only [hthere, if_true]
      exact ⟨s', hfetch.bind hs', hdb⟩
    · obtain ⟨s', hs', hdb⟩ := hno
      simp only [hthere, decide_false] at hfetch
      simp only [hthere, if_false]
      exact ⟨s', hfetch.bind hs', hdb⟩

/-! ### The functions -/

variable {db : Database}

theorem updatePrivileges_computes (uid : Int32) (p : UInt8) :
    Computes ok lib (sqlChUpdatePrivileges uid p) (.start db)
      (Sql.sqlChUpdatePrivileges ok db uid p) (updatePrivilegesQueries ok uid p) :=
  .connected (.lastQuery rfl computes_done)

theorem createGroup_computes (name : List UInt8) (uid : Int32) :
    Computes ok lib (sqlChCreateGroup name uid) (.start db) (Sql.sqlChCreateGroup ok db name uid)
      (createGroupQueries ok name uid) :=
  .connected (.lastQuery rfl computes_done)

theorem createFriends_computes (uid1 uid2 : Int32) :
    Computes ok lib (sqlChCreateFriends uid1 uid2) (.start db)
      (Sql.sqlChCreateFriends ok db uid1 uid2) (createFriendsQueries ok uid1 uid2) :=
  .connected (.tryQuery rfl (.tryQuery rfl (.lastQuery rfl computes_done)))

theorem deleteFriends_computes (uid1 uid2 : Int32) :
    Computes ok lib (sqlChDeleteFriends uid1 uid2) (.start db)
      (Sql.sqlChDeleteFriends ok db uid1 uid2) (deleteFriendsQueries ok db uid1 uid2) := by
  refine .connected (.tryQuery rfl ?_)
  exact computes_exists rfl computes_done (.lastQuery rfl computes_done)
    (.lastQuery rfl computes_done)

theorem createFriendRequest_computes (f t : Int32) :
    Computes ok lib (sqlChCreateFriendRequest f t) (.start db)
      (Sql.sqlChCreateFriendRequest ok db f t) (createFriendRequestQueries ok db f t) := by
  refine .connected (.tryQuery rfl (computes_exists rfl computes_done computes_done ?_))
  refine .tryQuery rfl (computes_exists rfl computes_done computes_done ?_)
  exact .lastQuery rfl computes_done

theorem existsRow_isSome {γ : Type} (x : Option γ) :
    existsRow x.isSome = existsRow (decide (x.isSome = true)) := by
  rw [Bool.decide_eq_true]

/-- A query that cannot be carried out. -/
theorem Computes.impossible {q : Query} {failed : α} {next : Program Reply α}
    (heffect : effect s.db q = none) :
    Computes ok lib (Mysql.tryQuery q failed next) s (failed, s.db) [q] :=
  ⟨_, tryQuery_failed (by rw [heffect, ite_self]), rfl⟩

theorem addUser_computes (saltBytes user pw : List UInt8) :
    Computes ok lib (sqlChAddUser lib saltBytes user pw) (.start db)
      (Sql.sqlChAddUser ok lib saltBytes db user pw)
      (addUserQueries ok lib saltBytes db user pw) := by
  dsimp only [Sql.sqlChAddUser, addUserQueries]
  refine .connected (.tryQuery rfl (computes_exists (existsRow_isSome _) computes_done
    computes_done ?_))
  have heffect : effect db (.insertUser user (lib.sha256 (ubytesToString saltBytes ++ pw))
      saltBytes) = (db.users.insert user (hexedHash lib (ubytesToString saltBytes) pw)
        (ubytesToString saltBytes)).map fun users => { db with users := users } := rfl
  cases hins : db.users.insert user (hexedHash lib (ubytesToString saltBytes) pw)
      (ubytesToString saltBytes) with
  | some users =>
    rw [hins] at heffect
    exact .lastQuery heffect computes_done
  | none =>
    rw [hins] at heffect
    simp only [ite_self]
    exact .impossible heffect

/-- A last query that changes nothing. -/
theorem Computes.lookup {q : Query} {failed : α} {next : Program Reply α}
    (heffect : effect s.db q = some s.db)
    (h : Computes ok lib next
      { s with queries := s.queries + 1, rows := selected lib s.db q } (a, s.db) []) :
    Computes ok lib (Mysql.tryQuery q failed next) s
      (if !ok (.query s.queries) then failed else a, s.db) [q] := by
  have hquery : Computes ok lib (Mysql.tryQuery q failed next) s _ [q] := h.lastQuery heffect
  split at hquery <;> split <;> first | exact hquery | contradiction

/-- A function with one query, which changes nothing. -/
theorem Computes.once {q : Query} {failed failed' : α} {next : Program Reply α}
    (heffect : effect db q = some db)
    (h : Computes ok lib next ⟨db, 1, 0, selected lib db q⟩ (a, db) []) :
    Computes ok lib (Mysql.connected failed (Mysql.tryQuery q failed' next)) (.start db)
      (if !ok .connect then failed else if !ok (.query 0) then failed' else a, db)
      (onceConnected ok q) := by
  have honce : Computes ok lib (Mysql.connected failed (Mysql.tryQuery q failed' next)) (.start db)
      _ _ := .connected (h.lookup heffect)
  unfold onceConnected
  cases hconnect : ok .connect with
  | false => rwa [hconnect] at honce
  | true => rwa [hconnect] at honce

/-- A function with one query and one fetch. -/
theorem Computes.onceFetched {q : Query} {failed failed' : α} {body : Program Reply α}
    (heffect : effect db q = some db)
    (h : Yields ok lib body ⟨db, 1, 0, selected lib db q⟩ a ⟨db, 1, 1, []⟩ []) :
    Computes ok lib (Mysql.connected failed (Mysql.tryQuery q failed' (withResult body)))
      (.start db) (if !ok .connect then failed else if !ok (.query 0) then failed' else a, db)
      (onceConnected ok q) := .once heffect ⟨_, h.withResult, rfl⟩

/-- A function that asks one question, answered by `yes` alone. -/
theorem question_computes {q : Query} {failed failed' yes no missing : Sqlv} {there : Prop}
    [Decidable there] (heffect : effect db q = some db)
    (hrows : selected lib db q = existsRow (decide there))
    (hother : failed ≠ yes ∧ failed' ≠ yes ∧ no ≠ yes ∧ missing ≠ yes) :
    Computes ok lib
      (connected failed (tryQuery q failed' (withResult (fetchExists yes no missing))) >>=
        fun result => pure (decide (result = yes)))
      (.start db) (ok .connect && ok (.query 0) && ok (.fetch 0) && decide there, db)
      (onceConnected ok q) := by
  obtain ⟨hfailed, hfailed', hno, hmissing⟩ := hother
  convert (Computes.onceFetched heffect (fetchExists_yields hrows)).map
    (fun result => decide (result = yes)) using 2
  split_ifs <;> simp_all

theorem areFriends_computes (f t : Int32) :
    Computes ok lib (sqlChAreFriends f t) (.start db) (Sql.sqlChAreFriends ok db f t, db)
      (areFriendsQueries ok f t) :=
  question_computes rfl rfl (by decide)

theorem userExists_computes (uid : Int32) :
    Computes ok lib (sqlChUserExists uid) (.start db) (Sql.sqlChUserExists ok db uid, db)
      (userExistsQueries ok uid) := by
  have h : Computes ok lib (sqlChUserExists uid) (.start db)
      (ok .connect && ok (.query 0) && ok (.fetch 0) &&
        decide ((db.users.byId uid).isSome = true), db) (userExistsQueries ok uid) :=
    question_computes rfl (existsRow_isSome _) (by decide)
  rwa [Bool.decide_eq_true] at h

/-- `priv = atoi(row[0])` with the number of a byte. -/
theorem privilege_byte {n : Nat} (h : n < 2 ^ 8) :
    UInt8.ofNat (atoi (text (toString n))).toUInt32.toNat = UInt8.ofNat n := by
  have hword : (Int32.ofNat n).toUInt32.toNat = n := by
    change (BitVec.ofInt 32 n).toNat = n
    rw [BitVec.toNat_ofInt]
    omega
  rw [atoi_text (by omega), hword]

/-- Every privilege is a byte. -/
def PrivilegesFit (db : Database) : Prop := ∀ row ∈ db.users.rows, row.privilege < 2 ^ 8

theorem loadPrivileges_computes (hfit : PrivilegesFit db) (uid : Int32) :
    Computes ok lib (sqlChLoadPrivileges uid) (.start db) (Sql.sqlChLoadPrivileges ok db uid, db)
      (loadPrivilegesQueries ok uid) := by
  refine .onceFetched rfl (.fetch ?_)
  cases hfound : db.users.byId uid with
  | none =>
    rw [selected, hfound]
    cases ok (.fetch 0) <;> exact yields_done
  | some row =>
    have hbyte := privilege_byte (hfit row (List.mem_of_find?_eq_some hfound))
    rw [selected, hfound]
    cases ok (.fetch 0) with
    | false => exact yields_done
    | true =>
      simp only [if_true]
      rw [← hbyte]
      exact yields_done

theorem joinUsers_pos {ids : List Int32} : ∀ info ∈ joinUsers db ids, 0 < info.id.toInt := by
  intro info hinfo
  obtain ⟨id, -, hinfo⟩ := List.mem_flatMap.mp hinfo
  obtain ⟨row, hrow, rfl⟩ := List.mem_map.mp hinfo
  obtain ⟨hrow, hid⟩ := List.mem_filter.mp hrow
  have hid : row.id = id := by simpa using hid
  exact hid ▸ (db.users.ids row hrow).1

/-- A function that pushes what its query selects. -/
theorem infos_computes {q : Query} {infos : List ServerUserInfo} {n : Nat}
    (heffect : effect db q = some db) (hrows : selected lib db q = infoRows infos)
    (hpos : ∀ info ∈ infos, 0 < info.id.toInt) (hn : infos.length < n)
    (out : Vstack ServerUserInfo) :
    Computes ok lib (connected (Sqlv.connectionError, out) (tryQuery q (.connectionError, out) do
        let out ← withResult (fetchInfos n out)
        pure (.success, out))) (.start db)
      (if !ok .connect then (.connectionError, out)
        else if !ok (.query 0) then (.connectionError, out)
        else (.success, out.pushAll (fetchRows ok 0 infos)), db)
      (onceConnected ok q) := by
  have hinfos : ∃ s', Yields ok lib (fetchInfos n out) ⟨db, 1, 0, selected lib db q⟩
      (out.pushAll (fetchRows ok 0 infos)) s' [] ∧ s'.db = db :=
    fetchInfos_yields hrows hpos hn out
  obtain ⟨s', hs', hdb⟩ := hinfos
  have hfetch : Computes ok lib (withResult (fetchInfos n out)) ⟨db, 1, 0, selected lib db q⟩
      (out.pushAll (fetchRows ok 0 infos), db) [] := ⟨_, hs'.withResult, hdb⟩
  exact .once heffect (hfetch.map (Prod.mk Sqlv.success))

theorem getFriends_computes {n : Nat} {uid : Int32}
    (hn : (joinUsers db ((db.friends.filter (fun row => row.1 = uid)).map Prod.snd)).length < n)
    (out : Vstack ServerUserInfo) :
    Computes ok lib (sqlChGetFriends n uid out) (.start db)
      (Sql.sqlChGetFriends ok db uid out, db) (getFriendsQueries ok uid) :=
  infos_computes rfl rfl joinUsers_pos hn out

theorem getFriendRequests_computes {n : Nat} {uid : Int32}
    (hn : (joinUsers db
      ((db.friendRequests.filter (fun row => row.2 = uid)).map Prod.fst)).length < n)
    (out : Vstack ServerUserInfo) :
    Computes ok lib (sqlChGetFriendRequests n uid out) (.start db)
      (Sql.sqlChGetFriendRequests ok db uid out, db) (getFriendRequestsQueries ok uid) :=
  infos_computes rfl rfl joinUsers_pos hn out

theorem fetchAuth_yields (user pw : List UInt8) :
    Yields ok lib (fetchAuth lib pw) ⟨db, 1, 0, selected lib db (.userByName user)⟩
      (match if ok (.fetch 0) then db.users.byName lib user else none with
        | some row =>
          if row.password ≠ hexedHash lib row.salt pw then (userIdInvalid, .wrongPassword)
          else (row.id, .success)
        | none => (userIdInvalid, .userNotFound)) ⟨db, 1, 1, []⟩ [] := by
  refine .fetch ?_
  cases hfound : db.users.byName lib user with
  | none =>
    rw [selected, hfound]
    cases ok (.fetch 0) <;> exact yields_done
  | some row =>
    have hid := atoi_decimal (db.users.ids row (Users.byName_some hfound).1).1
    rw [selected, hfound]
    cases ok (.fetch 0) with
    | false => exact yields_done
    | true =>
      change Yields ok lib (if row.password ≠ hexedHash lib row.salt pw
        then .done (userIdInvalid, Sqlv.wrongPassword) else .done (atoi (decimal row.id), .success))
        _ (if row.password ≠ hexedHash lib row.salt pw then (userIdInvalid, .wrongPassword)
          else (row.id, .success)) _ []
      rw [hid]
      split <;> exact yields_done

theorem checkUserAuth_computes (user pw : List UInt8) :
    Computes ok lib (sqlChCheckUserAuth lib user pw) (.start db)
      (Sql.sqlChCheckUserAuth ok lib db user pw, db) (checkUserAuthQueries ok user) := by
  have hauth : Yields ok lib (do
      let r ← withResult (fetchAuth lib pw)
      mysql .close
      pure r) ⟨db, 1, 0, selected lib db (.userByName user)⟩ _ ⟨db, 1, 1, []⟩ [] :=
    (fetchAuth_yields user pw).withResult.close
  have hquery : Computes ok lib (tryQuery (.userByName user)
      (userIdInvalid, Sqlv.connectionError) _) (.start db) _ _ := .lookup rfl ⟨_, hauth, rfl⟩
  obtain ⟨s', hs', hdb⟩ := hquery
  unfold Sql.sqlChCheckUserAuth checkUserAuthQueries onceConnected
  cases hconnect : ok .connect with
  | false =>
    refine ⟨.start db, .realConnect ?_, rfl⟩
    rw [hconnect]
    exact .call yields_done
  | true =>
    refine ⟨s', .realConnect ?_, hdb⟩
    rw [hconnect]
    exact hs'

/-! ## Histories -/

/-- A call of a function of the store. -/
inductive Invocation where
  | checkUserAuth (user pw : List UInt8)
  | addUser (saltBytes user pw : List UInt8)
  | loadPrivileges (uid : Int32)
  | updatePrivileges (uid : Int32) (p : UInt8)
  | userExists (uid : Int32)
  | createFriendRequest (uidFrom uidTo : Int32)
  | getFriendRequests (uidFrom : Int32) (requestsOut : Vstack ServerUserInfo)
  | createFriends (uid1 uid2 : Int32)
  | areFriends (uidFrom uidTo : Int32)
  | getFriends (uidFrom : Int32) (friendsOut : Vstack ServerUserInfo)
  | deleteFriends (uid1 uid2 : Int32)
  | createGroup (name : List UInt8) (uidOwner : Int32)

/-- What a call returns, with what it leaves in its out parameter. -/
inductive Value where
  | auth (uid : Int32) (result : Sqlv)
  | code (result : Sqlv)
  | privilege (p : UInt8)
  | number (r : Int32)
  | truth (b : Bool)
  | infos (result : Sqlv) (out : Vstack ServerUserInfo)

namespace Invocation

/-- The program of the call, with loops of `n` turns at most. -/
def program (lib : Externals) (n : Nat) : Invocation → Program Reply Value
  | checkUserAuth user pw => do
    let (uid, result) ← sqlChCheckUserAuth lib user pw
    pure (.auth uid result)
  | addUser saltBytes user pw => do pure (.code (← sqlChAddUser lib saltBytes user pw))
  | loadPrivileges uid => do pure (.privilege (← sqlChLoadPrivileges uid))
  | updatePrivileges uid p => do pure (.number (← sqlChUpdatePrivileges uid p))
  | userExists uid => do pure (.truth (← sqlChUserExists uid))
  | createFriendRequest f t => do pure (.code (← sqlChCreateFriendRequest f t))
  | getFriendRequests uid out => do
    let (result, out) ← sqlChGetFriendRequests n uid out
    pure (.infos result out)
  | createFriends a b => do pure (.code (← sqlChCreateFriends a b))
  | areFriends f t => do pure (.truth (← sqlChAreFriends f t))
  | getFriends uid out => do
    let (result, out) ← sqlChGetFriends n uid out
    pure (.infos result out)
  | deleteFriends a b => do pure (.code (← sqlChDeleteFriends a b))
  | createGroup name uid => do pure (.code (← sqlChCreateGroup name uid))

/-- The function of the store, and the tables after it. -/
def meaning (ok : SqlStep → Bool) (lib : Externals) (db : Database) :
    Invocation → Value × Database
  | checkUserAuth user pw =>
    let (uid, result) := Sql.sqlChCheckUserAuth ok lib db user pw
    (.auth uid result, db)
  | addUser saltBytes user pw =>
    let (result, db) := Sql.sqlChAddUser ok lib saltBytes db user pw
    (.code result, db)
  | loadPrivileges uid => (.privilege (Sql.sqlChLoadPrivileges ok db uid), db)
  | updatePrivileges uid p =>
    let (r, db) := Sql.sqlChUpdatePrivileges ok db uid p
    (.number r, db)
  | userExists uid => (.truth (Sql.sqlChUserExists ok db uid), db)
  | createFriendRequest f t =>
    let (result, db) := Sql.sqlChCreateFriendRequest ok db f t
    (.code result, db)
  | getFriendRequests uid out =>
    let (result, out) := Sql.sqlChGetFriendRequests ok db uid out
    (.infos result out, db)
  | createFriends a b =>
    let (result, db) := Sql.sqlChCreateFriends ok db a b
    (.code result, db)
  | areFriends f t => (.truth (Sql.sqlChAreFriends ok db f t), db)
  | getFriends uid out =>
    let (result, out) := Sql.sqlChGetFriends ok db uid out
    (.infos result out, db)
  | deleteFriends a b =>
    let (result, db) := Sql.sqlChDeleteFriends ok db a b
    (.code result, db)
  | createGroup name uid =>
    let (result, db) := Sql.sqlChCreateGroup ok db name uid
    (.code result, db)

def queries (ok : SqlStep → Bool) (lib : Externals) (db : Database) : Invocation → List Query
  | checkUserAuth user _ => checkUserAuthQueries ok user
  | addUser saltBytes user pw => addUserQueries ok lib saltBytes db user pw
  | loadPrivileges uid => loadPrivilegesQueries ok uid
  | updatePrivileges uid p => updatePrivilegesQueries ok uid p
  | userExists uid => userExistsQueries ok uid
  | createFriendRequest f t => createFriendRequestQueries ok db f t
  | getFriendRequests uid _ => getFriendRequestsQueries ok uid
  | createFriends a b => createFriendsQueries ok a b
  | areFriends f t => areFriendsQueries ok f t
  | getFriends uid _ => getFriendsQueries ok uid
  | deleteFriends a b => deleteFriendsQueries ok db a b
  | createGroup name uid => createGroupQueries ok name uid

def rows (db : Database) : Invocation → Nat
  | getFriendRequests uid _ =>
    (joinUsers db ((db.friendRequests.filter (fun row => row.2 = uid)).map Prod.fst)).length
  | getFriends uid _ =>
    (joinUsers db ((db.friends.filter (fun row => row.1 = uid)).map Prod.snd)).length
  | _ => 0

variable (ok lib) in
theorem program_computes (call : Invocation) (hfit : PrivilegesFit db) {n : Nat}
    (hn : call.rows db < n) : Computes ok lib (call.program lib n) (.start db)
      (call.meaning ok lib db) (call.queries ok lib db) := by
  cases call with
  | checkUserAuth user pw => exact (checkUserAuth_computes user pw).map _
  | addUser saltBytes user pw => exact (addUser_computes saltBytes user pw).map Value.code
  | loadPrivileges uid => exact (loadPrivileges_computes hfit uid).map Value.privilege
  | updatePrivileges uid p => exact (updatePrivileges_computes uid p).map Value.number
  | userExists uid => exact (userExists_computes uid).map Value.truth
  | createFriendRequest f t => exact (createFriendRequest_computes f t).map Value.code
  | getFriendRequests uid out => exact (getFriendRequests_computes hn out).map _
  | createFriends a b => exact (createFriends_computes a b).map Value.code
  | areFriends f t => exact (areFriends_computes f t).map Value.truth
  | getFriends uid out => exact (getFriends_computes hn out).map _
  | deleteFriends a b => exact (deleteFriends_computes a b).map Value.code
  | createGroup name uid => exact (createGroup_computes name uid).map Value.code

variable (ok lib) in
/-- No call stores more than a byte as a privilege. -/
theorem meaning_fit (call : Invocation) (hfit : PrivilegesFit db) :
    PrivilegesFit (call.meaning ok lib db).2 := by
  cases call with
  | addUser saltBytes user pw =>
    obtain hsame | ⟨users, -, hins, hadd⟩ := sqlChAddUser_cases ok lib saltBytes db user pw
    · exact fun row hrow => hfit row (hsame ▸ hrow)
    · intro row hrow
      simp only [meaning, hadd, Users.insert_rows hins, List.mem_append, List.mem_singleton] at hrow
      rcases hrow with hrow | rfl
      · exact hfit row hrow
      · exact Nat.two_pow_pos 8
  | updatePrivileges uid p =>
    simp only [meaning, Sql.sqlChUpdatePrivileges]
    split
    · exact hfit
    · split
      · exact hfit
      · intro row hrow
        rcases Users.mem_setPrivilege.mp hrow with ⟨hrow, -⟩ | ⟨row', -, -, rfl⟩
        · exact hfit row hrow
        · exact p.toNat_lt
  | createFriendRequest f t =>
    exact fun row hrow => hfit row (sqlChCreateFriendRequest_users ok db f t ▸ hrow)
  | createFriends a b =>
    exact fun row hrow => hfit row (sqlChCreateFriends_users ok db a b ▸ hrow)
  | deleteFriends a b =>
    exact fun row hrow => hfit row (sqlChDeleteFriends_users ok db a b ▸ hrow)
  | createGroup name uid =>
    exact fun row hrow => hfit row (sqlChCreateGroup_users ok db name uid ▸ hrow)
  | checkUserAuth _ _ | loadPrivileges _ | userExists _ | getFriendRequests _ _ | areFriends _ _
  | getFriends _ _ => exact hfit

end Invocation

/-- Calls one after the other, each with the steps that succeed in it. -/
abbrev History := List (Invocation × (SqlStep → Bool))

/-- What the calls return, the tables at the end and the queries sent: by
their programs, if every loop ends within `n` turns. -/
def execute (lib : Externals) (n : Nat) :
    Database → History → Option (List Value × Database × List Query)
  | db, [] => some ([], db, [])
  | db, (invoked, ok) :: calls =>
    match (invoked.program lib n).run (answer ok lib) (.start db) with
    | (some value, s, exchanged) =>
      (execute lib n s.db calls).map fun (values, db, qs) =>
        (value :: values, db, exchanged.filterMap sent ++ qs)
    | (none, _, _) => none

/-- The same by the functions of the store. -/
def evaluate (lib : Externals) : Database → History → List Value × Database × List Query
  | db, [] => ([], db, [])
  | db, (invoked, ok) :: calls =>
    let (value, after) := invoked.meaning ok lib db
    let (values, last, qs) := evaluate lib after calls
    (value :: values, last, invoked.queries ok lib db ++ qs)

theorem execute_eq (history : History) (hfit : PrivilegesFit db) :
    ∃ n₀, ∀ n ≥ n₀, execute lib n db history = some (evaluate lib db history) := by
  induction history generalizing db with
  | nil => exact ⟨0, fun _ _ => rfl⟩
  | cons x calls ih =>
    obtain ⟨invoked, ok⟩ := x
    obtain ⟨n₀, hrest⟩ := ih (invoked.meaning_fit ok lib hfit)
    refine ⟨max n₀ (invoked.rows db + 1), fun n hn => ?_⟩
    obtain ⟨s', ⟨x, hrun, hqueries⟩, hdb⟩ :=
      invoked.program_computes ok lib hfit (n := n) (by omega)
    rw [execute, hrun]
    simp only [hdb, hrest n (by omega), Option.map_some, hqueries]
    rfl

/-- Whatever is called in whatever order, with whatever steps failing, the
programs return what the functions of the store do, leave the same tables and
send the same queries, once the loops are given enough turns. -/
theorem histories_refine (lib : Externals) (history : History) :
    ∃ n₀, ∀ n ≥ n₀, execute lib n .empty history = some (evaluate lib .empty history) :=
  execute_eq history fun _ hrow => absurd hrow List.not_mem_nil

end VhIM.Sql.Mysql
