import QQChat.Server.Sessions

/-!
# Who is online, and where

Two properties of the sessions over whole runs, each with the condition on the
steps that it comes down to.

* `PresenceSound`: an entry of `user_to_conn_` names a registered connection
  authenticated as that user. Nothing but `handle_login` can break it, and it
  does so in two ways: on a connection that already owns a session (the old
  user's entry stays), and on a connection that the manager has stopped but that
  still had a read in flight (`presenceSound_iff`).
* `Exclusive`: a registered connection authenticated as a user is the one that
  user's entry names. Logins keep it; a `stop` breaks it when it runs a second
  time for a connection, after somebody else has logged in as its user
  (`exclusive_iff`).

Both are read off the registry that the server refines (`Lib.Registry`).
-/

namespace QQChat.Server

open Trace ChatServer

variable {δ : Type}

/-! ## Presence -/

/-- A user with an entry has a registered connection, authenticated as that user. -/
def PresenceSound (s : ChatServer δ) : Prop :=
  ∀ u c, s.userToConn u = some c → c ∈ s.connections ∧ (s.conn c).userId = u

/-- A login that this event lets in is on a registered connection that does not
own a session. -/
def SafeLogin (s : ChatServer δ) (e : Event δ) : Prop :=
  ∀ c body w user, e = .readBody c body w → acceptedLogin s c body w = some user →
    c ∈ s.connections ∧ s.userToConn (s.conn c).userId ≠ some c

/-- The database verifies nobody as user 0. -/
def NonzeroIds (e : Event δ) : Prop :=
  ∀ c body w, e = .readBody c body w → ∀ db username password user,
    w.db.verifyUser db username password = some user → user.userId ≠ 0

theorem verifiedUser_verified {s : ChatServer δ} {w : World δ} {req : LoginRequest} {user : User}
    (h : verifiedUser w s req = some user) :
    w.db.verifyUser s.db req.username req.password = some user := by
  unfold verifiedUser at h
  split at h
  · cases h
  next found hfound =>
    split at h
    · cases h
    · rw [hfound, ← h]

theorem safeLogin_iff {s : ChatServer δ} {e : Event δ} :
    s.registry.SafeLogin (sessionAction s e) ↔ SafeLogin s e := by
  constructor
  · intro h c body w user he hlogin
    subst he
    rw [sessionAction_of_login hlogin] at h
    exact h
  · intro h
    cases ha : sessionAction s e with
    | login c u =>
      obtain ⟨body, w, user, he, hlogin, _⟩ := sessionAction_eq_login ha
      exact h c body w user he hlogin
    | accept c => trivial
    | stop c => trivial
    | clear => trivial
    | idle => trivial

/-- Nobody is online as user 0. -/
theorem step_userToConn_zero {wiring : Wiring} {s s' : ChatServer δ} {e : Event δ}
    (he : NonzeroIds e) (h0 : s.userToConn 0 = none) (h : step wiring s e = some s') :
    s'.userToConn 0 = none := by
  have howner : s'.registry.owner 0 = none := by
    rw [step_registry h]
    refine Registry.owner_zero_apply (fun c u ha => ?_) h0
    obtain ⟨body, w, user, rfl, hlogin, rfl⟩ := sessionAction_eq_login ha
    unfold acceptedLogin at hlogin
    split at hlogin
    next req _ => exact he c body w rfl _ _ _ user (verifiedUser_verified hlogin)
    next => cases hlogin
  exact howner

/-- What every step keeps of the sessions, sound or not. -/
def Bounded (s : ChatServer δ) : Prop :=
  Known s ∧ s.userToConn 0 = none

theorem bounded_init (db : δ) : Bounded (ChatServer.init db) :=
  ⟨known_init db, rfl⟩

theorem step_bounded {wiring : Wiring} {s s' : ChatServer δ} {e : Event δ} (he : NonzeroIds e)
    (hs : Bounded s) (h : step wiring s e = some s') : Bounded s' :=
  ⟨step_known hs.1 h, step_userToConn_zero he hs.2 h⟩

theorem presenceSound_init (db : δ) : PresenceSound (ChatServer.init db) :=
  fun _ _ h => nomatch h

/-- A step keeps presence sound exactly if a login it lets in is safe. -/
theorem step_presenceSound_iff {wiring : Wiring} {s s' : ChatServer δ} {e : Event δ}
    (hb : Bounded s) (hs : PresenceSound s) (h : step wiring s e = some s') :
    PresenceSound s' ↔ SafeLogin s e := by
  show s'.registry.Sound ↔ _
  rw [step_registry h, Registry.sound_apply_iff (enabled_sessionAction hb.1 h) hb.2 hs,
    safeLogin_iff]

/-- **Presence is sound exactly as long as logins are safe.** -/
theorem presenceSound_iff (db : δ) (evs : List (Event δ)) (hids : ∀ e ∈ evs, NonzeroIds e) :
    Always (step .started) PresenceSound (.init db) evs
      ↔ EachStep (step .started) (fun s e _ => SafeLogin s e) (.init db) evs := by
  rw [always_iff_eachStep]
  refine (and_iff_right (presenceSound_init db)).trans ?_
  -- `Bounded` is kept by every step; presence itself carries the equivalence on.
  refine eachStep_iff (I := Bounded) (J := PresenceSound) ?_ ?_ ?_ hids (bounded_init db)
    (presenceSound_init db)
  · exact fun he hb h => step_bounded he hb h
  · exact fun _ _ _ _ hs' => hs'
  · exact fun _ hb hs h => step_presenceSound_iff hb hs h

theorem twoAccounts_userId_ne_zero {username password : Bytes} {user : User}
    (h : twoAccounts.db.verifyUser () username password = some user) : user.userId ≠ 0 := by
  simp only [twoAccounts] at h
  split at h
  · cases h
    exact (by decide : (1 : Int32) ≠ 0)
  · split at h
    · cases h
      exact (by decide : (2 : Int32) ≠ 0)
    · cases h

theorem nonzeroIds_loginA {c : ConnId} : ∀ e ∈ loginA c, NonzeroIds e := by
  intro e he d body w heq db username password user hverify
  rcases List.mem_cons.mp he with rfl | he
  · cases heq
  · rw [List.mem_singleton.mp he] at heq
    cases heq
    exact twoAccounts_userId_ne_zero hverify

/-- A login on a new connection is safe, and sound. -/
theorem presenceSound_iff_loginA :
    Always (step .started) PresenceSound (.init ()) (.accept 1 :: loginA 1)
      ↔ EachStep (step .started) (fun s e _ => SafeLogin s e) (.init ())
          (.accept 1 :: loginA 1) := by
  refine presenceSound_iff () _ fun e he => ?_
  rcases List.mem_cons.mp he with rfl | he
  · exact fun _ _ _ heq => nomatch heq
  · exact nonzeroIds_loginA e he

/-- User 1 logs in as user 2 on the same connection and stays online there. -/
theorem not_presenceSound_relogin : ¬ Always (step .started) PresenceSound (.init ())
    (.accept 1 :: loginA 1 ++ loginB 1) := by
  intro h
  have hrun : (exec (step .started) (.init ()) (.accept 1 :: loginA 1 ++ loginB 1)).map
      (fun s => (s.userToConn 1, (s.conn 1).userId)) = some (some 1, 2) := by decide
  obtain ⟨s, hs, hfinal⟩ := Option.map_eq_some_iff.mp hrun
  have hsound := always_iff.mp h _ [] s (List.append_nil _).symm hs
  have huser := (hsound 1 1 (congrArg Prod.fst hfinal)).2
  rw [show (s.conn 1).userId = 2 from congrArg Prod.snd hfinal] at huser
  exact absurd huser (by decide)

/-! ## Exclusivity -/

/-- A registered connection authenticated as a user owns that user's entry. -/
def Exclusive (s : ChatServer δ) : Prop :=
  ∀ c ∈ s.connections, (s.conn c).userId ≠ 0 → s.userToConn (s.conn c).userId = some c

/-- No user is authenticated on two registered connections. -/
def OneConnectionPerUser (s : ChatServer δ) : Prop :=
  ∀ c ∈ s.connections, ∀ d ∈ s.connections, (s.conn c).userId ≠ 0 →
    (s.conn c).userId = (s.conn d).userId → c = d

/-- A connection that is stopped takes no entry from another registered one. -/
def StopKeepsOthers (s : ChatServer δ) (e : Event δ) (s' : ChatServer δ) : Prop :=
  ∀ c, e.stopped = some c → ∀ u d, d ≠ c → d ∈ s.connections → s.userToConn u = some d →
    s'.userToConn u = some d

/-- A connection that this event stops is still registered, or was never
authenticated, or its user's entry names no other registered connection. -/
def SafeStop (s : ChatServer δ) (e : Event δ) : Prop :=
  ∀ c, e.stopped = some c → c ∈ s.connections ∨ (s.conn c).userId = 0
    ∨ ∀ d, s.userToConn (s.conn c).userId = some d → d = c ∨ d ∉ s.connections

theorem safeStop_iff {s : ChatServer δ} {e : Event δ} :
    s.registry.SafeStop (sessionAction s e) ↔ SafeStop s e := by
  constructor
  · intro h c hc
    rw [sessionAction_eq_stop.mpr hc] at h
    exact h
  · intro h
    cases ha : sessionAction s e with
    | stop c => exact h c (sessionAction_eq_stop.mp ha)
    | accept c => trivial
    | login c u => trivial
    | clear => trivial
    | idle => trivial

theorem stopKeepsOthers_iff {wiring : Wiring} {s s' : ChatServer δ} {e : Event δ}
    (h : step wiring s e = some s') :
    s.registry.KeepsOthers (sessionAction s e) ↔ StopKeepsOthers s e s' := by
  have howner : s'.userToConn = (s.registry.apply (sessionAction s e)).owner :=
    congrArg Registry.owner (step_registry h)
  constructor
  · intro hk c hc
    rw [howner]
    rw [sessionAction_eq_stop.mpr hc] at hk ⊢
    exact hk
  · intro hk
    cases ha : sessionAction s e with
    | stop c =>
      have hc := hk c (sessionAction_eq_stop.mp ha)
      rw [howner, ha] at hc
      exact hc
    | accept c => trivial
    | login c u => trivial
    | clear => trivial
    | idle => trivial

theorem Exclusive.oneConnectionPerUser {s : ChatServer δ} (h : Exclusive s) :
    OneConnectionPerUser s :=
  fun _ hc _ hd h0 hu => Registry.Exclusive.eq_of_user_eq (r := s.registry) h hc hd hu h0

/-- **Sessions are exclusive exactly as long as stops are safe.** -/
theorem exclusive_iff (db : δ) (evs : List (Event δ)) :
    (Always (step .started) (fun s => Exclusive s ∧ OneConnectionPerUser s) (.init db) evs
        ∧ EachStep (step .started) StopKeepsOthers (.init db) evs)
      ↔ EachStep (step .started) (fun s e _ => SafeStop s e) (.init db) evs := by
  have hinit : Exclusive (ChatServer.init db) := fun c hc => absurd hc (Finset.notMem_empty c)
  rw [always_iff_eachStep, and_assoc, ← eachStep_and]
  refine (and_iff_right ⟨hinit, hinit.oneConnectionPerUser⟩).trans ?_
  refine eachStep_iff (E := fun _ => True) (I := Known) (J := Exclusive) ?_ ?_ ?_
    (fun _ _ => trivial) (known_init db) hinit
  · exact fun _ hk h => step_known hk h
  · exact fun _ _ _ _ hr => hr.1.1
  · intro s e s' _ hk hs h
    have hexclusive : Exclusive s' ↔ (s.registry.apply (sessionAction s e)).Exclusive := by
      rw [← step_registry h]
      exact Iff.rfl
    rw [← safeStop_iff, ← Registry.exclusive_apply_iff (enabled_sessionAction hk h) hs,
      ← hexclusive, stopKeepsOthers_iff h]
    exact ⟨fun hr => ⟨hr.1.1, hr.2⟩, fun hr => ⟨⟨hr.1, hr.1.oneConnectionPerUser⟩, hr.2⟩⟩

/-- User 1 leaves connection 1 with an answer still being written, logs in on
connection 2, and loses that session when the write fails. -/
def staleWrite : List (Event Unit) :=
  .accept 1 :: loginA 1 ++ [.runPosted, .readError 1 .header]
    ++ .accept 2 :: loginA 2 ++ [.writeError 1]

theorem not_exclusive_staleWrite :
    ¬ (Always (step .started) (fun s => Exclusive s ∧ OneConnectionPerUser s) (.init ())
          staleWrite
        ∧ EachStep (step .started) StopKeepsOthers (.init ()) staleWrite) := by
  intro ⟨h, _⟩
  have hrun : (exec (step .started) (.init ()) staleWrite).map
      (fun s => ((s.conn 2).userId, s.userToConn 1, decide (2 ∈ s.connections)))
        = some (1, none, true) := by decide
  obtain ⟨s, hs, hfinal⟩ := Option.map_eq_some_iff.mp hrun
  injection hfinal with huser hrest
  injection hrest with hentry hlive
  have hown := (always_iff.mp h _ [] s (List.append_nil _).symm hs).1 2 (of_decide_eq_true hlive)
  rw [huser, hentry] at hown
  exact absurd (hown (by decide)) (by decide)

end QQChat.Server
