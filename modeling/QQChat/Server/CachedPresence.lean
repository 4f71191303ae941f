import QQChat.Server.Answers

/-!
# Presence in the cache

Who is online is kept twice: in `user_to_conn_`, and in Redis under
`user:<id>:online` and `user:<id>:conn`. `handle_login` writes both. Nothing
writes the second when an entry of the first goes away: `set_online` is never
called with `false`, and `remove_connection_id` not at all.

So the cache mirrors the registry until the first stop that takes an entry away,
or a shutdown with somebody online (`mirrors_iff`).
-/

namespace QQChat.Server

open Trace ChatServer

variable {δ : Type}

/-- The cache says that a user is online exactly if the user has an entry, and
then names the same connection. -/
def Mirrors (s : ChatServer δ) : Prop :=
  ∀ u, (s.cache.online u = some true ↔ (s.userToConn u).isSome)
    ∧ ∀ c, s.userToConn u = some c → s.cache.connId u = some c

/-- Every command is sent as it is formatted, and Redis executes it. -/
def RedisSucceeds (e : Event δ) : Prop :=
  ∀ c body w, e = .readBody c body w → ∀ command, w.redis command = true

/-- The event takes nobody's entry away: a connection that it stops was never
authenticated, or its user has no entry, and at a shutdown nobody has one. -/
def TakesNoEntry (s : ChatServer δ) (e : Event δ) : Prop :=
  (∀ c, e.stopped = some c →
      (s.conn c).userId = 0 ∨ s.userToConn (s.conn c).userId = none)
    ∧ (e = .shutdown → ∀ u, s.userToConn u = none)

/-! ## What writes the cache -/

/-- The two presence entries of every user. -/
def Cache.presence (cache : Cache) : (Int32 → Option Bool) × (Int32 → Option ConnId) :=
  (cache.online, cache.connId)

/-- The presence entries after user `u` has logged in on `c`. -/
def loggedIn (cache : Cache) (u : Int32) (c : ConnId) :
    (Int32 → Option Bool) × (Int32 → Option ConnId) :=
  (Function.update cache.online u (some true), Function.update cache.connId u (some c))

theorem presence_deliver (w : World δ) (s : ChatServer δ) (fromId : Int32)
    (req : MessageRequest) :
    (deliver w s fromId req).cache.presence = s.cache.presence := by
  unfold deliver isUserOnline sendToUser
  cases s.userToConn req.toId with
  | none =>
    show (safeCommand w s _).cache.presence = _
    unfold safeCommand
    split <;> rfl
  | some d =>
    rw [Option.isSome_some, if_pos rfl]
    dsimp only
    split <;> rfl

theorem presence_handleChatMessage (w : World δ) (s : ChatServer δ) (c : ConnId)
    (req : MessageRequest) :
    (handleChatMessage w s c req).cache.presence = s.cache.presence := by
  rcases handleChatMessage_cases w s c req with ⟨_, db, msgId, _, heq⟩ | ⟨_, _, _, _, heq⟩
  · rw [heq]
    exact presence_deliver w { s with db } _ req
  · rw [heq]
    rfl

theorem presence_handleLogin {w : World δ} (hredis : ∀ command, w.redis command = true)
    (s : ChatServer δ) (c : ConnId) (req : LoginRequest) :
    (handleLogin w s c req).cache.presence = match verifiedUser w s req with
      | some user => loggedIn s.cache user.userId c
      | none => s.cache.presence := by
  dsimp only [handleLogin, verifiedUser]
  cases w.db.verifyUser s.db req.username req.password with
  | none => rfl
  | some user =>
    dsimp only
    split
    · rfl
    · show (safeCommand w (safeCommand w _ _) _).cache.presence = _
      unfold safeCommand
      rw [if_pos (hredis _), if_pos (hredis _)]
      rfl

theorem presence_dispatch {w : World δ} (hredis : ∀ command, w.redis command = true)
    (s : ChatServer δ) (c : ConnId) (r : Option Request) :
    (r.elim s (handleRequest w s c)).cache.presence = match (match r with
        | some (.login req) => verifiedUser w s req
        | _ => none) with
      | some user => loggedIn s.cache user.userId c
      | none => s.cache.presence := by
  cases r with
  | none => rfl
  | some r =>
    have hother : (∀ req, r ≠ .login req) → (∀ req, r ≠ .message req) →
        (handleRequest w s c r).cache.presence = s.cache.presence := by
      intro hlogin hmessage
      obtain ⟨_, _, _, heq⟩ := handleRequest_answered w s c hlogin hmessage
      rw [heq]
      rfl
    cases r with
    | login req => exact presence_handleLogin hredis s c req
    | message req => exact presence_handleChatMessage w s c req
    | _ => exact hother (fun _ heq => nomatch heq) fun _ heq => nomatch heq

section

variable {wiring : Wiring} {s s' : ChatServer δ} {e : Event δ}

/-- Only an accepted login writes the presence entries. -/
theorem step_presence (he : RedisSucceeds e) (h : step wiring s e = some s') :
    s'.cache.presence = match sessionAction s e with
      | .login c u => loggedIn s.cache u c
      | _ => s.cache.presence := by
  rcases e.readBody_or_ne with ⟨c, body, w, rfl⟩ | hbody
  · have hdispatched : s'.cache.presence = match acceptedLogin s c body w with
        | some user => loggedIn s.cache user.userId c
        | none => s.cache.presence := by
      obtain ⟨_, _, packet, r, hpacket, hr, rfl⟩ := step_readBody.mp h
      show (r.elim _ (handleRequest w ((s.bodyRead c body).called c packet) c)).cache.presence = _
      rw [presence_dispatch (he c body w rfl), ← requestOf_eq hpacket hr]
      rfl
    rw [hdispatched]
    cases hlogin : acceptedLogin s c body w with
    | none => rw [sessionAction_of_no_login hlogin]
    | some user => rw [sessionAction_of_login hlogin]
  · rw [(step_stored h hbody).2]
    split
    next c u heq => exact absurd heq (sessionAction_ne_login hbody c u)
    next => rfl

end

/-! ## What keeps the mirror -/

/-- The mirror, of the entries alone. -/
def MirrorsEntries (presence : (Int32 → Option Bool) × (Int32 → Option ConnId))
    (owner : Int32 → Option ConnId) : Prop :=
  ∀ u, (presence.1 u = some true ↔ (owner u).isSome)
    ∧ ∀ c, owner u = some c → presence.2 u = some c

theorem mirrorsEntries_loggedIn {cache : Cache} {owner : Int32 → Option ConnId}
    (h : MirrorsEntries cache.presence owner) (u : Int32) (c : ConnId) :
    MirrorsEntries (loggedIn cache u c) (Function.update owner u (some c)) := by
  intro v
  unfold loggedIn
  by_cases hv : v = u
  · subst hv
    simp
  · simp only [Function.update_of_ne hv]
    exact h v

/-- Taking an entry away leaves the cache behind, if there was one. -/
theorem mirrorsEntries_erase_iff {presence : (Int32 → Option Bool) × (Int32 → Option ConnId)}
    {owner : Int32 → Option ConnId} (h : MirrorsEntries presence owner) (u : Int32) :
    MirrorsEntries presence (Function.update owner u none) ↔ owner u = none := by
  constructor
  · intro herased
    have hoff : ¬ presence.1 u = some true := by
      rw [(herased u).1, Function.update_self]
      exact Bool.false_ne_true
    rw [(h u).1] at hoff
    exact Option.not_isSome_iff_eq_none.mp hoff
  · intro hnone
    rw [← hnone, Function.update_eq_self]
    exact h

theorem mirrorsEntries_clear_iff {presence : (Int32 → Option Bool) × (Int32 → Option ConnId)}
    {owner : Int32 → Option ConnId} (h : MirrorsEntries presence owner) :
    MirrorsEntries presence (fun _ => none) ↔ ∀ u, owner u = none := by
  constructor
  · intro hclear u
    have hoff : ¬ presence.1 u = some true := by
      rw [(hclear u).1]
      exact Bool.false_ne_true
    rw [(h u).1] at hoff
    exact Option.not_isSome_iff_eq_none.mp hoff
  · intro hnone
    rw [← funext hnone]
    exact h

section

variable {wiring : Wiring} {s s' : ChatServer δ} {e : Event δ}

/-- A step keeps the mirror exactly if it takes nobody's entry away. -/
theorem step_mirrors_iff (he : RedisSucceeds e) (hs : Mirrors s)
    (h : step wiring s e = some s') : Mirrors s' ↔ TakesNoEntry s e := by
  have howner : s'.userToConn = (s.registry.apply (sessionAction s e)).owner :=
    congrArg Registry.owner (step_registry h)
  have hpresence := step_presence he h
  have hentries : MirrorsEntries s.cache.presence s.userToConn := hs
  show MirrorsEntries s'.cache.presence s'.userToConn ↔ _
  rw [howner, hpresence]
  have hstop : ∀ c, e.stopped = some c ↔ sessionAction s e = .stop c :=
    fun c => sessionAction_eq_stop.symm
  have hclear : e = .shutdown ↔ sessionAction s e = .clear :=
    ⟨fun heq => by rw [heq]; rfl, sessionAction_eq_clear⟩
  unfold TakesNoEntry
  simp only [hstop, hclear]
  cases sessionAction s e with
  | accept c =>
    exact iff_of_true hs ⟨(fun _ heq => nomatch heq), fun heq => nomatch heq⟩
  | idle => exact iff_of_true hs ⟨(fun _ heq => nomatch heq), fun heq => nomatch heq⟩
  | login c u =>
    refine iff_of_true ?_ ⟨(fun _ heq => nomatch heq), fun heq => nomatch heq⟩
    exact mirrorsEntries_loggedIn hentries u c
  | stop c =>
    -- `stop` erases the user's entry, whichever connection it names.
    have hiff : MirrorsEntries s.cache.presence (s.registry.apply (.stop c)).owner
        ↔ (s.conn c).userId = 0 ∨ s.userToConn (s.conn c).userId = none := by
      show MirrorsEntries _ (if (s.conn c).userId ≠ 0 then _ else _) ↔ _
      by_cases h0 : (s.conn c).userId = 0
      · rw [if_neg (not_not_intro h0)]
        exact iff_of_true hs (Or.inl h0)
      · rw [if_pos h0]
        exact (mirrorsEntries_erase_iff hentries _).trans (or_iff_right h0).symm
    refine hiff.trans ⟨fun hc => ⟨fun d heq => ?_, fun heq => nomatch heq⟩, fun hc => hc.1 c rfl⟩
    cases heq
    exact hc
  | clear =>
    refine (mirrorsEntries_clear_iff hentries).trans ⟨fun hnone => ?_, fun hboth => hboth.2 rfl⟩
    exact ⟨(fun _ heq => nomatch heq), fun _ => hnone⟩

end

/-- **The cache mirrors the registry exactly as long as no entry is taken away.** -/
theorem mirrors_iff (wiring : Wiring) (db : δ) (evs : List (Event δ))
    (hredis : ∀ e ∈ evs, RedisSucceeds e) :
    Always (step wiring) Mirrors (.init db) evs
      ↔ EachStep (step wiring) (fun s e _ => TakesNoEntry s e) (.init db) evs := by
  have hinit : Mirrors (ChatServer.init db) :=
    fun u => ⟨⟨(fun h => nomatch h), fun h => nomatch h⟩, fun c h => nomatch h⟩
  rw [always_iff_eachStep]
  refine (and_iff_right hinit).trans ?_
  refine eachStep_iff (I := fun _ => True) (J := Mirrors) ?_ ?_ ?_ hredis trivial hinit
  · exact fun _ _ _ => trivial
  · exact fun _ _ _ _ hs' => hs'
  · exact fun he _ hs h => step_mirrors_iff he hs h

theorem redisSucceeds_loginA {c : ConnId} : ∀ e ∈ loginA c, RedisSucceeds e := by
  intro e he d body w heq command
  rcases List.mem_cons.mp he with rfl | he
  · cases heq
  · rw [List.mem_singleton.mp he] at heq
    cases heq
    rfl

/-- A client that logs in and stays. -/
theorem mirrors_iff_loginA :
    Always (step .started) Mirrors (.init ()) (.accept 1 :: loginA 1)
      ↔ EachStep (step .started) (fun s e _ => TakesNoEntry s e) (.init ())
          (.accept 1 :: loginA 1) := by
  refine mirrors_iff .started () _ fun e he => ?_
  rcases List.mem_cons.mp he with rfl | he
  · exact fun _ _ _ heq => nomatch heq
  · exact redisSucceeds_loginA e he

/-- User 1 logs in and disconnects. -/
def loginAndLeave : List (Event Unit) :=
  .accept 1 :: loginA 1 ++ [.readError 1 .header]

/-- Every command was executed, and user 1 stays online in the cache. -/
theorem not_mirrors_disconnect : (∀ e ∈ loginAndLeave, RedisSucceeds e)
    ∧ ¬ Always (step .started) Mirrors (.init ()) loginAndLeave := by
  constructor
  · intro e he
    rcases List.mem_append.mp he with he | he
    · rcases List.mem_cons.mp he with rfl | he
      · exact fun _ _ _ heq => nomatch heq
      · exact redisSucceeds_loginA e he
    · rw [List.mem_singleton.mp he]
      exact fun _ _ _ heq => nomatch heq
  · intro h
    have hrun : (exec (step .started) (.init ()) loginAndLeave).map
        (fun s => (s.cache.online 1, s.userToConn 1)) = some (some true, none) := by decide
    obtain ⟨s, hs, hfinal⟩ := Option.map_eq_some_iff.mp hrun
    injection hfinal with honline hentry
    have hmirror := (always_iff.mp h _ [] s (List.append_nil _).symm hs 1).1.mp honline
    rw [hentry] at hmirror
    cases hmirror

end QQChat.Server
