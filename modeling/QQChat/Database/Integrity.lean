import Mathlib.Data.List.Pairwise
import QQChat.Database.Accounting

/-!
# What the tables keep

The constraints that `init.sql` declares, as one invariant (`Tables.Integrity`): the
statements of the server keep it, and with it the server's own state stays grounded in
the tables — whoever is authenticated, online, cached or counted for is a registered
user (`integrity_of_exec`).

Two things follow that the constraints do not say: a row of `users` is found by its id
and by its name, and the join of `get_friends` drops no friendship.
-/

namespace QQChat.Database

open Server ChatServer Trace

/-! ## The constraints -/

namespace Tables

/-- The values fit the columns of `users`. -/
structure Columns (collation : Collation) (row : UserRow) : Prop where
  username : collation.varchar 64 row.username = true
  passwordHash : collation.varchar 256 row.passwordHash = true
  /-- `NULL`, as nothing else is ever inserted, or 256 characters. -/
  avatarUrl : row.avatarUrl.all (collation.varchar 256) = true
  securityQuestion : collation.varchar 256 row.securityQuestion = true
  securityAnswer : collation.varchar 256 row.securityAnswer = true

/-- The rows are different users. -/
def Distinct (collation : Collation) (row other : UserRow) : Prop :=
  row.userId ≠ other.userId ∧ collation.eq row.username other.username = false

instance (collation : Collation) (row other : UserRow) :
    Decidable (Distinct collation row other) :=
  inferInstanceAs (Decidable (_ ∧ _))

structure Integrity (collation : Collation) (t : Tables) : Prop where
  columns : ∀ row ∈ t.users, Columns collation row
  users : t.users.Pairwise (Distinct collation)
  friends : ∀ row ∈ t.friends, t.hasUser row.userId = true ∧ t.hasUser row.friendId = true
  messages : ∀ row ∈ t.messages, t.hasUser row.fromId = true ∧ t.hasUser row.toId = true
    ∧ collation.text row.content = true
  msgIds : t.messages.Pairwise fun row other => row.msgId ≠ other.msgId

section

variable {collation : Collation} {t t' : Tables}

theorem Distinct.symm {row other : UserRow} (h : Distinct collation row other) :
    Distinct collation other row := by
  refine ⟨h.1.symm, Bool.eq_false_iff.mpr fun heq => ?_⟩
  have hname := h.2
  rw [collation.symm heq] at hname
  cases hname

instance : Std.Symm (Distinct collation) :=
  ⟨fun _ _ h => h.symm⟩

/-- What the other tables refer to stays. -/
theorem Integrity.of_users (ht : t.Integrity collation) (hfriends : t'.friends = t.friends)
    (hmessages : t'.messages = t.messages)
    (hcolumns : ∀ row ∈ t'.users, Columns collation row)
    (husers : t'.users.Pairwise (Distinct collation))
    (hstay : ∀ {id}, t.hasUser id = true → t'.hasUser id = true) : t'.Integrity collation where
  columns := hcolumns
  users := husers
  friends := by
    rw [hfriends]
    exact fun row hrow => ⟨hstay (ht.friends row hrow).1, hstay (ht.friends row hrow).2⟩
  messages := by
    rw [hmessages]
    intro row hrow
    obtain ⟨hfrom, hto, htext⟩ := ht.messages row hrow
    exact ⟨hstay hfrom, hstay hto, htext⟩
  msgIds := by
    rw [hmessages]
    exact ht.msgIds

theorem Integrity.insertUser (ht : t.Integrity collation) {row : UserRow}
    (havatar : row.avatarUrl = none) (h : t.insertUser collation row = some t') :
    t'.Integrity collation := by
  obtain ⟨⟨hname, hpassword, hquestion, hanswer, hothers⟩, rfl⟩ := insertUser_eq_some.mp h
  refine ht.of_users rfl rfl (fun other hother => ?_) ?_ fun hid => ?_
  · rcases List.mem_append.mp hother with hother | hother
    · exact ht.columns other hother
    · rw [List.mem_singleton.mp hother]
      exact ⟨hname, hpassword, by rw [havatar]; rfl, hquestion, hanswer⟩
  · refine List.pairwise_append.mpr ⟨ht.users, List.pairwise_singleton _ _, ?_⟩
    intro other hother new hnew
    rw [List.mem_singleton.mp hnew]
    exact hothers other hother
  · obtain ⟨other, hother, heq⟩ := hasUser_iff.mp hid
    exact hasUser_iff.mpr ⟨other, List.mem_append_left _ hother, heq⟩

/-- An update of the hash, whichever rows it is of. -/
theorem Integrity.mapPassword (ht : t.Integrity collation) {passwordHash : Bytes}
    (hpassword : collation.varchar 256 passwordHash = true) (p : UserRow → Bool) :
    Integrity collation { t with
      users := t.users.map fun row => if p row then { row with passwordHash } else row } := by
  refine ht.of_users rfl rfl (fun row hrow => ?_) ?_ fun hid => ?_
  · obtain ⟨other, hother, rfl⟩ := List.mem_map.mp hrow
    have hcolumns := ht.columns other hother
    split
    · exact ⟨hcolumns.username, hpassword, hcolumns.avatarUrl, hcolumns.securityQuestion,
        hcolumns.securityAnswer⟩
    · exact hcolumns
  · refine List.pairwise_map.mpr (ht.users.imp fun {row other} hdistinct => ?_)
    -- Neither the ids nor the names change.
    have hsame : ∀ row : UserRow, (if p row then { row with passwordHash } else row).userId
        = row.userId ∧ (if p row then { row with passwordHash } else row).username
          = row.username := fun row => by split <;> exact ⟨rfl, rfl⟩
    unfold Distinct
    rw [(hsame row).1, (hsame row).2, (hsame other).1, (hsame other).2]
    exact hdistinct
  · obtain ⟨row, hrow, heq⟩ := hasUser_iff.mp hid
    refine hasUser_iff.mpr ⟨_, List.mem_map_of_mem hrow, ?_⟩
    split <;> exact heq

theorem Integrity.updatePassword (ht : t.Integrity collation) {passwordHash username : Bytes}
    (h : t.updatePassword collation passwordHash username = some t') :
    t'.Integrity collation := by
  obtain ⟨hpassword, _⟩ := Option.ite_none_right_eq_some.mp h
  rw [updatePassword_eq_some h]
  exact ht.mapPassword hpassword fun row => collation.eq row.username username

theorem Integrity.insertFriend (ht : t.Integrity collation) {row : FriendRow}
    (h : t.insertFriend row = some t') : t'.Integrity collation := by
  obtain ⟨hboth, rfl⟩ := insertFriend_eq_some.mp h
  refine ⟨ht.columns, ht.users, fun other hother => ?_, ht.messages, ht.msgIds⟩
  rcases List.mem_append.mp hother with hother | hother
  · exact ht.friends other hother
  · rw [List.mem_singleton.mp hother]
    exact hboth

theorem Integrity.insertMessage (ht : t.Integrity collation) {row : MessageRow}
    (h : t.insertMessage collation row = some t') : t'.Integrity collation := by
  obtain ⟨⟨hfrom, hto, htext, hothers⟩, heq⟩ := Option.ite_none_right_eq_some.mp h
  rw [← Option.some_inj.mp heq]
  refine ⟨ht.columns, ht.users, ht.friends, fun other hother => ?_, ?_⟩
  · rcases List.mem_append.mp hother with hother | hother
    · exact ht.messages other hother
    · rw [List.mem_singleton.mp hother]
      exact ⟨hfrom, hto, htext⟩
  · refine List.pairwise_append.mpr ⟨ht.msgIds, List.pairwise_singleton _ _, ?_⟩
    intro other hother new hnew
    rw [List.mem_singleton.mp hnew]
    exact hothers other hother

/-! ## Rows are found -/

/-- Users are the same if their ids are, or their names. -/
theorem Integrity.eq_of_same (ht : t.Integrity collation) {row other : UserRow}
    (hrow : row ∈ t.users) (hother : other ∈ t.users)
    (hsame : row.userId = other.userId ∨ collation.eq row.username other.username = true) :
    row = other := by
  by_contra hne
  obtain ⟨hid, hname⟩ := ht.users.forall hrow hother hne
  rcases hsame with heq | heq
  · exact hid heq
  · rw [hname] at heq
    cases heq

/-- What only one element satisfies is found. -/
theorem find?_eq_some_iff {α : Type} {p : α → Bool} {l : List α} {a : α}
    (h : ∀ x ∈ l, ∀ y ∈ l, p x = true → p y = true → x = y) :
    l.find? p = some a ↔ a ∈ l ∧ p a = true := by
  constructor
  · exact fun hfind => ⟨List.mem_of_find?_eq_some hfind, List.find?_some hfind⟩
  · intro ⟨ha, hpa⟩
    obtain ⟨b, hb⟩ := Option.isSome_iff_exists.mp (List.find?_isSome.mpr ⟨a, ha, hpa⟩)
    rw [hb, h b (List.mem_of_find?_eq_some hb) a ha (List.find?_some hb) hpa]

/-- A row is found by its id. -/
theorem Integrity.userWithId_eq_some (ht : t.Integrity collation) {userId : Int32}
    {row : UserRow} :
    t.userWithId userId = some row ↔ row ∈ t.users ∧ row.userId.val = userId := by
  refine (find?_eq_some_iff fun x hx y hy hpx hpy => ?_).trans
    (and_congr_right fun _ => decide_eq_true_iff)
  refine ht.eq_of_same hx hy (Or.inl (Subtype.ext ?_))
  rw [of_decide_eq_true hpx, of_decide_eq_true hpy]

/-- A row is found by its name, and by any that compares equal. -/
theorem Integrity.userNamed_eq_some (ht : t.Integrity collation) {username : Bytes}
    {row : UserRow} : t.userNamed collation username = some row
      ↔ row ∈ t.users ∧ collation.eq row.username username = true :=
  find?_eq_some_iff fun _ hx _ hy hpx hpy =>
    ht.eq_of_same hx hy (Or.inr (collation.trans hpx (collation.symm hpy)))

/-- Who has a row is found by the id of it. -/
theorem userWithId_isSome (t : Tables) (userId : Int32) :
    (t.userWithId userId).isSome = t.hasUser userId := by
  unfold userWithId hasUser
  rw [Bool.eq_iff_iff, List.find?_isSome, List.any_eq_true]

/-- **The join of `get_friends` drops no friendship.** -/
theorem Integrity.joinFriends_fst (ht : t.Integrity collation) (userId : Int32) :
    (joinFriends t userId).map Prod.fst
      = t.friends.filter fun row => row.userId = userId ∧ row.status = 1 := by
  unfold joinFriends
  rw [List.map_filterMap]
  refine (List.filterMap_congr fun row hrow => ?_).trans List.filterMap_some
  have hfriend := (ht.friends row (List.mem_of_mem_filter hrow)).2
  rw [← userWithId_isSome] at hfriend
  obtain ⟨friend, hfriend⟩ := Option.isSome_iff_exists.mp hfriend
  rw [hfriend]
  rfl

end

end Tables

/-! ## The server's state -/

/-- The user a command is about. -/
def userOf : CacheCommand → Int32
  | .setOnline u _ => u
  | .setConnectionId u _ => u
  | .incrementUnread u => u

/-- There is something in the cache about the user. -/
def Knows (cache : Cache) (u : Int32) : Prop :=
  cache.online u ≠ none ∨ cache.connId u ≠ none ∨ cache.unread u ≠ 0

/-- Whoever the server knows of is registered. -/
structure Grounded (s : ChatServer Tables) : Prop where
  users : ∀ c, (s.conn c).userId ≠ 0 → s.db.hasUser (s.conn c).userId = true
  entries : ∀ u d, s.userToConn u = some d → s.db.hasUser u = true
  cached : ∀ u, Knows s.cache u → s.db.hasUser u = true

theorem knows_execute {cache : Cache} {command : CacheCommand} {u : Int32}
    (h : Knows (command.execute cache) u) : Knows cache u ∨ userOf command = u := by
  by_cases hu : u = userOf command
  · exact Or.inr hu.symm
  · refine Or.inl ?_
    unfold Knows at h ⊢
    cases command with
    | setOnline v online =>
      have hsame : Function.update cache.online v (some online) u = cache.online u :=
        Function.update_of_ne hu ..
      rwa [← hsame]
    | setConnectionId v c =>
      have hsame : Function.update cache.connId v (some c) u = cache.connId u :=
        Function.update_of_ne hu ..
      rwa [← hsame]
    | incrementUnread v =>
      have hsame : Function.update cache.unread v (cache.unread v + 1) u = cache.unread u :=
        Function.update_of_ne hu ..
      rwa [← hsame]

theorem knows_executeAll {cache : Cache} {commands : List CacheCommand} {u : Int32}
    (h : Knows (cache.executeAll commands) u) :
    Knows cache u ∨ ∃ command ∈ commands, userOf command = u := by
  induction commands generalizing cache with
  | nil => exact Or.inl h
  | cons command commands ih =>
    rcases @ih (command.execute cache) h with hknows | ⟨other, hother, heq⟩
    · rcases knows_execute hknows with hknows | heq
      · exact Or.inl hknows
      · exact Or.inr ⟨command, List.mem_cons_self, heq⟩
    · exact Or.inr ⟨other, List.mem_cons_of_mem _ hother, heq⟩

section

variable {collation : Collation} {hash : Sha256} {mysql : MySQL} {w : World Tables}
  {wiring : Wiring} {s s' : ChatServer Tables} {e : Event Tables} {t t' : Tables}
  {userId : Int32} {r : Request}

/-- A request keeps the constraints. -/
theorem Writes.integrity (hw : w.db = databasePool collation hash mysql)
    (h : Writes w t userId r t') (ht : t.Integrity collation) : t'.Integrity collation := by
  cases h with
  | nothing => exact ht
  | message hauth h =>
    rw [hw] at h
    obtain ⟨_, hinsert⟩ := Option.ite_none_right_eq_some.mp h
    obtain ⟨_, hrow, heq⟩ := Option.map_eq_some_iff.mp hinsert
    cases heq
    exact ht.insertMessage hrow
  | @addFriend friendId t₁ hauth hself hfriend h =>
    rw [hw] at h ⊢
    have h₁ : t₁.Integrity collation :=
      ht.insertFriend (Option.ite_none_right_eq_some.mp h).2
    show ((Database.addFriend mysql t₁ friendId userId).getD t₁).Integrity collation
    cases hback : Database.addFriend mysql t₁ friendId userId with
    | none => exact h₁
    | some t₂ => exact h₁.insertFriend (Option.ite_none_right_eq_some.mp hback).2
  | register h =>
    rw [hw] at h
    exact ht.insertUser rfl (registerUser_eq_some.mp h).2.1
  | resetPassword h =>
    rw [hw] at h
    exact ht.updatePassword (resetPassword_eq_some.mp h).2

/-- Whoever logs in is registered. -/
theorem hasUser_of_verifiedUser (hw : w.db = databasePool collation hash mysql)
    {req : LoginRequest} {user : User} (h : verifiedUser w s req = some user) :
    s.db.hasUser user.userId = true := by
  have hverify := verifiedUser_verified h
  rw [hw] at hverify
  exact Tables.hasUser_iff.mpr (row_of_verifyUser hverify)

/-- Whoever a stored message is for is registered. -/
theorem hasUser_of_stores (hw : w.db = databasePool collation hash mysql) {c : ConnId}
    {req : MessageRequest} (h : Stores w s c req) : s.db.hasUser req.toId = true := by
  obtain ⟨_, hsome⟩ := h
  rw [hw] at hsome
  obtain ⟨_, hstored⟩ := Option.isSome_iff_exists.mp hsome
  obtain ⟨_, hinsert⟩ := Option.ite_none_right_eq_some.mp hstored
  obtain ⟨_, hrow, _⟩ := Option.map_eq_some_iff.mp hinsert
  exact (Option.ite_none_right_eq_some.mp hrow).1.2.1

/-- Whoever a command is about is registered. -/
theorem hasUser_of_command (hpool : UsesPool collation hash e) {command : CacheCommand}
    (h : command ∈ cacheCommands s e) : s.db.hasUser (userOf command) = true := by
  cases e with
  | readBody c body w =>
    obtain ⟨mysql, hw⟩ := hpool c body w rfl
    dsimp only [cacheCommands] at h
    cases hr : requestOf s c body with
    | none =>
      rw [hr] at h
      cases h
    | some r =>
      rw [hr] at h
      have hmem := List.mem_of_mem_filter h
      cases r with
      | login req =>
        dsimp only [commandsOf] at hmem
        cases hverified : verifiedUser w s req with
        | none =>
          rw [hverified] at hmem
          cases hmem
        | some user =>
          rw [hverified] at hmem
          have huser := hasUser_of_verifiedUser hw hverified
          rcases List.mem_cons.mp hmem with rfl | hmem
          · exact huser
          · rw [List.mem_singleton.mp hmem]
            exact huser
      | message req =>
        dsimp only [commandsOf] at hmem
        split at hmem
        next hstores =>
          rw [List.mem_singleton.mp hmem]
          exact hasUser_of_stores hw hstores.1
        next => cases hmem
      | _ => cases hmem
  | _ => cases h

theorem step_hasUser (hpool : UsesPool collation hash e) (h : step wiring s e = some s')
    {id : Int32} (hid : s.db.hasUser id = true) : s'.db.hasUser id = true := by
  rcases e.readBody_or_ne with ⟨c, body, w, rfl⟩ | he
  · obtain ⟨mysql, hw⟩ := hpool c body w rfl
    obtain ⟨r, hwrites⟩ := step_writes h
    exact hwrites.hasUser hw hid
  · rw [(step_undispatched h he).1]
    exact hid

theorem step_integrity (hpool : UsesPool collation hash e) (h : step wiring s e = some s')
    (hs : s.db.Integrity collation) : s'.db.Integrity collation := by
  rcases e.readBody_or_ne with ⟨c, body, w, rfl⟩ | he
  · obtain ⟨mysql, hw⟩ := hpool c body w rfl
    obtain ⟨r, hwrites⟩ := step_writes h
    exact hwrites.integrity hw hs
  · rw [(step_undispatched h he).1]
    exact hs

/-- Who has logged in is registered. -/
theorem step_loginsRegistered (hpool : UsesPool collation hash e) (h : step wiring s e = some s')
    (hs : ∀ c u, u ∈ loginsOn c (sendsOf s.calls) → s.db.hasUser u = true) {c : ConnId} {u : Int32}
    (hu : u ∈ loginsOn c (sendsOf s'.calls)) : s'.db.hasUser u = true := by
  rw [sendsOf_step h, loginsOn_append, List.mem_append] at hu
  refine step_hasUser hpool h ?_
  rcases hu with hu | hu
  · exact hs c u hu
  · obtain ⟨p, hp, hlogin⟩ := List.mem_filterMap.mp hu
    obtain ⟨_, hlogin⟩ := Option.ite_none_right_eq_some.mp hlogin
    obtain ⟨body, w, req, user, rfl, _, hverify, rfl⟩ := login_of_answered h hp hlogin
    obtain ⟨mysql, hw⟩ := hpool _ body w rfl
    rw [hw] at hverify
    exact Tables.hasUser_iff.mpr (row_of_verifyUser hverify)

/-! ## Over a run -/

/-- What carries the induction: sessions are logins, and logins are of registered users. -/
structure Sound (collation : Collation) (s : ChatServer Tables) : Prop where
  integrity : s.db.Integrity collation
  loggedIn : LoggedIn s
  entries : ∀ u d, s.userToConn u = some d → u ∈ loginsOn d (sendsOf s.calls)
  logins : ∀ c u, u ∈ loginsOn c (sendsOf s.calls) → s.db.hasUser u = true
  cached : ∀ u, Knows s.cache u → s.db.hasUser u = true

theorem sound_init (ht : t.Integrity collation) : Sound collation (.init t) where
  integrity := ht
  loggedIn := loggedIn_init t
  entries := fun _ _ h => by cases h
  logins := fun _ _ h => absurd h List.not_mem_nil
  cached := fun _ h => by rcases h with h | h | h <;> exact absurd rfl h

theorem step_sound (hpool : UsesPool collation hash e) (hs : Sound collation s)
    (h : step wiring s e = some s') : Sound collation s' where
  integrity := step_integrity hpool h hs.integrity
  loggedIn := step_loggedIn hs.loggedIn h
  entries := fun _ _ => entry_of_step h hs.entries
  logins := fun _ _ => step_loginsRegistered hpool h hs.logins
  cached := by
    intro u hu
    rw [step_cache h] at hu
    refine step_hasUser hpool h ?_
    rcases knows_executeAll hu with hu | ⟨command, hcommand, rfl⟩
    · exact hs.cached u hu
    · exact hasUser_of_command hpool hcommand

theorem Sound.grounded (hs : Sound collation s) : Grounded s where
  users := fun c hauth =>
    hs.logins c _ (List.mem_of_getLast? (hs.loggedIn.lastLogin_eq_some hauth))
  entries := fun u d hentry => hs.logins d u (hs.entries u d hentry)
  cached := hs.cached

/-- **The constraints hold all along, and the server stays grounded in the tables**: in
every state of every run. -/
theorem integrity_of_exec {evs : List (Event Tables)} (ht : t.Integrity collation)
    (hpool : ∀ e ∈ evs, UsesPool collation hash e)
    (h : exec (step wiring) (.init t) evs = some s) :
    s.db.Integrity collation ∧ Grounded s ∧ ∀ userId, (joinFriends s.db userId).map Prod.fst
      = s.db.friends.filter fun row => row.userId = userId ∧ row.status = 1 := by
  have hs : Sound collation s := exec_invariant (E := UsesPool collation hash)
    (fun he hs hstep => step_sound he hs hstep) hpool (sound_init ht) h
  exact ⟨hs.integrity, hs.grounded, fun userId => hs.integrity.joinFriends_fst userId⟩

end

/-! ## The rows of `init.sql` -/

theorem integrity_initSql : initSql.Integrity utf8 where
  columns := by
    intro row hrow
    simp only [initSql, List.mem_cons, List.not_mem_nil, or_false] at hrow
    rcases hrow with rfl | rfl | rfl <;> constructor <;> decide +kernel
  users := by decide +kernel
  friends := by decide
  messages := by decide
  msgIds := List.Pairwise.nil

/-- After user 2's session: `session` of `Authenticity`. -/
theorem integrity_of_exec_session : ∃ s, exec (step .started) (.init initSql) session = some s
    ∧ (s.conn 1).userId = 2 ∧ s.db.messages.length = 1 ∧ s.db.Integrity utf8 ∧ Grounded s := by
  have hpool : ∀ e ∈ session, UsesPool utf8 sampleHash e := by
    intro e he c body w heq
    subst heq
    have hw : w = reachableWorld := by
      simp [session, received] at he
      tauto
    exact ⟨reachable, congrArg World.db hw⟩
  have hrun : (exec (step .started) (.init initSql) session).map (fun s =>
      ((s.conn 1).userId, s.db.messages.length)) = some (2, 1) := by decide
  obtain ⟨s, hs, hfinal⟩ := Option.map_eq_some_iff.mp hrun
  injection hfinal with huser hmessages
  obtain ⟨hintegrity, hgrounded, _⟩ := integrity_of_exec integrity_initSql hpool hs
  exact ⟨s, hs, huser, hmessages, hintegrity, hgrounded⟩

end QQChat.Database
