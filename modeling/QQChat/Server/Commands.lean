import QQChat.Server.Relays

/-!
# The commands that Redis is sent

The cache entries of a server are what its commands have made of them: `cacheCommands` says
which commands a step causes and Redis executes, and `cache_of_exec` that the entries
are those commands applied one after the other. A login causes two, and a message that
was stored for somebody who has no entry in `user_to_conn_` causes one.

So every message that is stored is passed on, counted, or lost, and only one of these:
passed on to its recipient, or to whoever the connection of a stale entry belongs to by
now; lost if that connection is gone, or Redis does not execute the increment. Over a run
the four add up (`conserved_of_exec`).
-/

namespace QQChat.Server

open Trace ChatServer

variable {δ : Type}

/-! ## What a request causes -/

/-- The message is from an authenticated connection, and is stored. -/
def Stores (w : World δ) (s : ChatServer δ) (c : ConnId) (req : MessageRequest) : Prop :=
  (s.conn c).userId ≠ 0
    ∧ (w.db.sendMessage s.db (s.conn c).userId req.toId req.content).isSome = true

instance (w : World δ) (s : ChatServer δ) (c : ConnId) (req : MessageRequest) :
    Decidable (Stores w s c req) :=
  inferInstanceAs (Decidable (_ ∧ _))

/-- The commands that a request causes, in order. -/
def commandsOf (w : World δ) (s : ChatServer δ) (c : ConnId) : Request → List CacheCommand
  | .login req =>
    match verifiedUser w s req with
    | some user => [.setOnline user.userId true, .setConnectionId user.userId c]
    | none => []
  | .message req =>
    if Stores w s c req ∧ s.userToConn req.toId = none then [.incrementUnread req.toId] else []
  | _ => []

/-- The commands of a step that Redis executes. -/
def cacheCommands (s : ChatServer δ) : Event δ → List CacheCommand
  | .readBody c body w =>
    match requestOf s c body with
    | some r => (commandsOf w s c r).filter w.redis
    | none => []
  | _ => []

/-- The chat message that a step stores. -/
def storedChat (s : ChatServer δ) : Event δ → List MessageRequest
  | .readBody c body w =>
    match requestOf s c body with
    | some (.message req) => if Stores w s c req then [req] else []
    | _ => []
  | _ => []

/-- A message to this user is neither passed on nor counted: their entry names a connection
that is gone, or there is no entry and the counter is not incremented. -/
def misses (w : World δ) (s : ChatServer δ) (toId : Int32) : Bool :=
  match s.userToConn toId with
  | none => !w.redis (.incrementUnread toId)
  | some d => d ∉ s.connections

/-- The chat message that a step stores, but neither passes on nor counts. -/
def lostChat (s : ChatServer δ) : Event δ → List MessageRequest
  | .readBody c body w =>
    match requestOf s c body with
    | some (.message req) =>
      if Stores w s c req ∧ misses w s req.toId = true then [req] else []
    | _ => []
  | _ => []

/-- One command after the other. -/
def Cache.executeAll (cache : Cache) (commands : List CacheCommand) : Cache :=
  commands.foldl CacheCommand.execute cache

theorem Cache.executeAll_append (cache : Cache) (commands commands' : List CacheCommand) :
    cache.executeAll (commands ++ commands') = (cache.executeAll commands).executeAll commands' :=
  List.foldl_append ..

theorem cache_safeCommand (w : World δ) (s : ChatServer δ) (command : CacheCommand) :
    (safeCommand w s command).cache = s.cache.executeAll ([command].filter w.redis) := by
  unfold safeCommand
  rw [List.filter_singleton]
  cases w.redis command <;> rfl

theorem cache_deliver (w : World δ) (s : ChatServer δ) (fromId : Int32) (req : MessageRequest) :
    (deliver w s fromId req).cache = s.cache.executeAll
      ((if s.userToConn req.toId = none then [.incrementUnread req.toId] else []).filter
        w.redis) := by
  unfold deliver isUserOnline sendToUser
  cases s.userToConn req.toId with
  | none => exact cache_safeCommand w s _
  | some d =>
    rw [Option.isSome_some, if_pos rfl, if_neg (by simp)]
    dsimp only
    split <;> rfl

/-- **What a request does to the cache.** -/
theorem cache_handleRequest (w : World δ) (s : ChatServer δ) (c : ConnId) (r : Request) :
    (handleRequest w s c r).cache = s.cache.executeAll ((commandsOf w s c r).filter w.redis) := by
  have hother : (∀ req, r ≠ .login req) → (∀ req, r ≠ .message req) →
      (handleRequest w s c r).cache = s.cache := by
    intro hlogin hmessage
    obtain ⟨_, _, _, heq⟩ := handleRequest_answered w s c hlogin hmessage
    rw [heq]
    rfl
  cases r with
  | login req =>
    dsimp only [handleRequest, handleLogin, commandsOf, verifiedUser]
    cases w.db.verifyUser s.db req.username req.password with
    | none => rfl
    | some user =>
      dsimp only
      split
      · rfl
      · show (safeCommand w (safeCommand w _ _) _).cache = _
        rw [cache_safeCommand, cache_safeCommand, ← Cache.executeAll_append,
          ← List.filter_append]
        rfl
  | message req =>
    rw [handleRequest, commandsOf]
    rcases handleChatMessage_cases w s c req with
      ⟨hauth, db, msgId, hdb, heq⟩ | ⟨hrefused, _, _, _, heq⟩
    · have hstores : Stores w s c req := ⟨hauth, Option.isSome_iff_exists.mpr ⟨_, hdb⟩⟩
      rw [heq]
      show (deliver w { s with db } _ req).cache = _
      rw [cache_deliver]
      simp only [hstores, true_and]
    · have hstores : ¬ Stores w s c req := by
        rintro ⟨hauth, hsome⟩
        rcases hrefused with hzero | hnone
        · exact hauth hzero
        · rw [hnone] at hsome
          cases hsome
      rw [heq, if_neg (fun h => hstores h.1)]
      rfl
  | _ => exact hother (fun _ heq => by cases heq) fun _ heq => by cases heq

section

variable {wiring : Wiring} {s s' : ChatServer δ} {e : Event δ}

/-- What a request causes does not depend on the buffers and the log. -/
theorem commandsOf_congr {t : ChatServer δ} (hdb : t.db = s.db)
    (hentries : t.userToConn = s.userToConn) {c : ConnId}
    (huser : (t.conn c).userId = (s.conn c).userId) (w : World δ) (r : Request) :
    commandsOf w t c r = commandsOf w s c r := by
  cases r with
  | login req =>
    have hverified : verifiedUser w t req = verifiedUser w s req := by
      unfold verifiedUser isUserOnline
      rw [hdb, hentries]
    rw [commandsOf, commandsOf, hverified]
  | message req =>
    have hstores : Stores w t c req ↔ Stores w s c req := by
      unfold Stores
      rw [hdb, huser]
    refine if_congr ?_ rfl rfl
    rw [hstores, hentries]
  | _ => rfl

/-- **A step does to the cache what the commands that Redis executes do.** -/
theorem step_cache (h : step wiring s e = some s') :
    s'.cache = s.cache.executeAll (cacheCommands s e) := by
  rcases e.readBody_or_ne with ⟨c, body, w, rfl⟩ | he
  · obtain ⟨_, _, packet, r, hpacket, hr, rfl⟩ := step_readBody.mp h
    rw [cacheCommands, requestOf_eq hpacket hr]
    cases r with
    | none => rfl
    | some r =>
      show (handleRequest w ((s.bodyRead c body).called c packet) c r).cache = _
      have huser : (((s.bodyRead c body).called c packet).conn c).userId = (s.conn c).userId :=
        congrArg (Registry.user · c) (registry_bodyRead s c body)
      rw [cache_handleRequest,
        commandsOf_congr (s := s) (t := (s.bodyRead c body).called c packet) rfl rfl huser]
      rfl
  · rw [(step_stored h he).2]
    cases e with
    | readBody c body w => exact absurd rfl (he c body w)
    | _ => rfl

end

theorem length_storedChat_le (s : ChatServer δ) (e : Event δ) : (storedChat s e).length ≤ 1 := by
  cases e with
  | readBody c body w =>
    dsimp only [storedChat]
    split
    · split
      · exact Nat.le_refl 1
      · exact Nat.zero_le 1
    · exact Nat.zero_le 1
  | _ => exact Nat.zero_le 1

/-! ## Over a run -/

theorem unread_executeAll (cache : Cache) (commands : List CacheCommand) (u : Int32) :
    (cache.executeAll commands).unread u
      = cache.unread u + commands.count (.incrementUnread u) := by
  induction commands generalizing cache with
  | nil => exact (Int.add_zero _).symm
  | cons command commands ih =>
    show ((command.execute cache).executeAll commands).unread u = _
    rw [ih]
    cases command with
    | setOnline v online =>
      rw [List.count_cons_of_ne (by simp)]
      rfl
    | setConnectionId v d =>
      rw [List.count_cons_of_ne (by simp)]
      rfl
    | incrementUnread v =>
      show Function.update cache.unread v (cache.unread v + 1) u + _ = _
      by_cases hv : u = v
      · rw [hv, Function.update_self, List.count_cons_self]
        omega
      · rw [Function.update_of_ne hv, List.count_cons_of_ne (by simpa using Ne.symm hv)]

/-- The messages to one user. -/
def toUser (u : Int32) (chats : List MessageRequest) : List MessageRequest :=
  chats.filter fun req => req.toId = u

section

variable {wiring : Wiring} {db : δ} {evs : List (Event δ)} {s s' : ChatServer δ} {e : Event δ}

theorem toUser_nil (u : Int32) : toUser u [] = [] :=
  rfl

theorem length_toUser_singleton (u : Int32) (req : MessageRequest) :
    (toUser u [req]).length = if req.toId = u then 1 else 0 := by
  unfold toUser
  rw [List.filter_singleton]
  by_cases h : req.toId = u <;> simp [h]

/-- A stored message is passed on, counted or lost. -/
theorem length_storedChat (s : ChatServer δ) (e : Event δ) (u : Int32) :
    (toUser u (storedChat s e)).length
      = (toUser u ((relays s e).map Relay.req)).length
        + (cacheCommands s e).count (.incrementUnread u) + (toUser u (lostChat s e)).length := by
  cases e with
  | readBody c body w =>
    dsimp only [storedChat, relays, cacheCommands, lostChat]
    cases requestOf s c body with
    | none => rfl
    | some r =>
      cases r with
      | message req =>
        dsimp only [commandsOf]
        by_cases hstores : Stores w s c req
        · have hstored := hstores
          unfold Stores at hstored
          rw [if_pos hstores, if_pos hstored, length_toUser_singleton]
          simp only [hstores, true_and]
          unfold relay misses
          cases hentry : s.userToConn req.toId with
          | none =>
            -- Counted, or lost if Redis refuses.
            cases hredis : w.redis (.incrementUnread req.toId) with
            | true => simp [hredis, toUser_nil, List.count_singleton]
            | false => simp [hredis, length_toUser_singleton, toUser_nil]
          | some d =>
            -- Relayed, or lost if the connection is gone.
            by_cases hd : d ∈ s.connections
            · simp [hd, length_toUser_singleton, toUser_nil]
            · simp [hd, length_toUser_singleton, toUser_nil]
        · have hstored := hstores
          unfold Stores at hstored
          rw [if_neg hstores, if_neg hstored, if_neg (fun h => hstores h.1),
            if_neg (fun h => hstores h.1)]
          rfl
      | login req =>
        dsimp only [commandsOf]
        have hzero : ∀ commands : List CacheCommand,
            (.incrementUnread u) ∉ commands → (commands.filter w.redis).count
              (.incrementUnread u) = 0 := fun commands h =>
          List.count_eq_zero.mpr fun hmem => h (List.mem_of_mem_filter hmem)
        rw [hzero _ (by cases verifiedUser w s req <;> simp)]
        rfl
      | _ => rfl
  | _ => rfl

/-- A step counts one message at most. -/
theorem unread_step (h : step wiring s e = some s') (u : Int32) :
    s.cache.unread u ≤ s'.cache.unread u ∧ s'.cache.unread u ≤ s.cache.unread u + 1 := by
  have hone := length_storedChat s e u
  have hstored : (toUser u (storedChat s e)).length ≤ 1 :=
    Nat.le_trans (List.length_filter_le ..) (length_storedChat_le s e)
  rw [step_cache h, unread_executeAll]
  omega

end

end QQChat.Server
