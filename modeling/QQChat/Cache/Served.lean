import QQChat.Cache.Entries
import QQChat.Server.Commands

/-!
# The server's cache in Redis

The server's state has the cache as it is meant (`Server.Cache`); here the same commands
are called as the members of `CacheManager`, one after the other, on a Redis store. Read
with its own members the store gives back what the state says (`redis_reads_back`): over
any run of the server, in which Redis executes whatever commands it pleases, as long as
they are sent as they are formatted.

Mirroring notes:
- A connection id is the hexadecimal text of the number that stands for it
  (`ss << std::hex << dist(gen)`).
- `get_unread_count` throws where the counter is no `int`.
-/

namespace QQChat.CacheManager

open Redis Server Trace

variable {δ : Type}

/-! ## The commands as calls -/

/-- The id of a connection, as text. -/
def connIdText (c : ConnId) : Bytes :=
  Numeral.digits 16 c

theorem connIdText_injective : Function.Injective connIdText :=
  Numeral.digits_injective (by decide) (by decide)

theorem cStr_connIdText (c : ConnId) : cStr (connIdText c) = connIdText c := by
  refine List.takeWhile_eq_self_iff.mpr fun b hb => decide_eq_true fun hzero => ?_
  rw [hzero] at hb
  exact Numeral.zero_notMem_digits (by decide) (by decide) c hb

/-- The member that sends a command. -/
def callOf : CacheCommand → Call
  | .setOnline u online => .setOnline u online
  | .setConnectionId u c => .setConnectionId u (connIdText c)
  | .incrementUnread u => .incrementUnread u

/-- The calls of a step, each with what it meets. -/
def cacheCalls (link : World δ → CacheCommand → Link) (s : ChatServer δ) :
    Event δ → List (Link × Call)
  | .readBody c body w =>
    match requestOf s c body with
    | some r => (commandsOf w s c r).map fun command => (link w command, callOf command)
    | none => []
  | _ => []

/-- A command is sent as it is formatted, and what becomes of it is what the world says. -/
structure Follows (link : World δ → CacheCommand → Link) : Prop where
  asFormatted : ∀ w command, (link w command).AsFormatted
  executes : ∀ w command, (link w command).Executes ↔ w.redis command = true

/-! ## The entries and the state -/

/-- The entries are those of the server's cache. -/
structure Keeps (entries : Entries) (cache : Cache) : Prop where
  online : ∀ u, entries.online u = cache.online u
  connId : ∀ u, entries.connId u = (cache.connId u).map connIdText
  unread : ∀ u, entries.count u = cache.unread u

theorem keeps_empty : Keeps {} {} where
  online _ := rfl
  connId _ := rfl
  unread _ := rfl

/-- Entries after some calls. -/
def enter (entries : Entries) (calls : List (Link × Call)) : Entries :=
  calls.foldl (fun entries p => if p.1.Executes then p.2.apply entries else entries) entries

theorem entered_append (calls calls' : List (Link × Call)) :
    entered (calls ++ calls') = enter (entered calls) calls' :=
  List.foldl_append ..

section

variable {entries : Entries} {cache : Cache}

/-- One command does to both the same, as long as the counter has room. -/
theorem Keeps.execute (h : Keeps entries cache) (command : CacheCommand)
    (hroom : ∀ u, command = .incrementUnread u → IsLongLong (cache.unread u + 1)) :
    Keeps ((callOf command).apply entries) (command.execute cache) := by
  cases command with
  | setOnline u online =>
    refine ⟨fun v => ?_, h.connId, h.unread⟩
    show Function.update entries.online u (some online) v = Function.update cache.online u _ v
    rw [funext h.online]
  | setConnectionId u c =>
    refine ⟨h.online, fun v => ?_, h.unread⟩
    show Function.update entries.connId u (some (cStr (connIdText c))) v
      = (Function.update cache.connId u (some c) v).map connIdText
    by_cases hv : v = u
    · rw [hv, Function.update_self, Function.update_self, cStr_connIdText]
      rfl
    · rw [Function.update_of_ne hv, Function.update_of_ne hv]
      exact h.connId v
  | incrementUnread u =>
    have hcount := h.unread u
    have hin : IsLongLong (entries.count u + 1) := hcount ▸ hroom u rfl
    have happly : (callOf (.incrementUnread u)).apply entries
        = entries.putUnread u (some (entries.count u + 1)) := if_pos hin
    rw [happly]
    refine ⟨h.online, h.connId, fun v => ?_⟩
    show (Function.update entries.unread u (some (entries.count u + 1)) v).getD 0
      = Function.update cache.unread u (cache.unread u + 1) v
    by_cases hv : v = u
    · rw [hv, Function.update_self, Function.update_self, Option.getD_some, hcount]
    · rw [Function.update_of_ne hv, Function.update_of_ne hv]
      exact h.unread v

/-- A counter grows by one at most. -/
theorem unread_execute_le (cache : Cache) (command : CacheCommand) (u : Int32) :
    cache.unread u ≤ (command.execute cache).unread u
      ∧ (command.execute cache).unread u ≤ cache.unread u + 1 := by
  cases command with
  | incrementUnread v =>
    show cache.unread u ≤ Function.update cache.unread v (cache.unread v + 1) u
      ∧ Function.update cache.unread v (cache.unread v + 1) u ≤ _
    by_cases hv : u = v
    · rw [hv, Function.update_self]
      omega
    · rw [Function.update_of_ne hv]
      omega
  | _ => exact ⟨Int.le_refl _, Int.le_of_lt (Int.lt_succ _)⟩

/-- The commands of a step do to both the same. -/
theorem Keeps.enter {link : World δ → CacheCommand → Link} (hlink : Follows link) (w : World δ)
    (h : Keeps entries cache) (commands : List CacheCommand)
    (hroom : ∀ u, 0 ≤ cache.unread u ∧ cache.unread u + commands.length < 2 ^ 63) :
    Keeps (enter entries (commands.map fun command => (link w command, callOf command)))
      (cache.executeAll (commands.filter w.redis)) := by
  induction commands generalizing entries cache with
  | nil => exact h
  | cons command commands ih =>
    rw [List.map_cons]
    show Keeps (CacheManager.enter (if (link w command).Executes
      then (callOf command).apply entries else entries) _) _
    by_cases hredis : w.redis command = true
    · rw [if_pos ((hlink.executes w command).mpr hredis), List.filter_cons_of_pos hredis]
      refine ih (h.execute command fun u _ => ?_) fun u => ?_
      · have hu := hroom u
        rw [List.length_cons] at hu
        constructor <;> omega
      · have hu := hroom u
        have hle := unread_execute_le cache command u
        rw [List.length_cons] at hu
        omega
    · rw [if_neg (fun hex => hredis ((hlink.executes w command).mp hex)),
        List.filter_cons_of_neg hredis]
      refine ih h fun u => ?_
      have hu := hroom u
      rw [List.length_cons] at hu
      omega

end

/-! ## Over a run -/

/-- The calls of a run. -/
def callsIn (link : World δ → CacheCommand → Link) (wiring : Wiring) (db : δ)
    (evs : List (Event δ)) : List (Link × Call) :=
  outputs (step wiring) (cacheCalls link) (.init db) evs

section

variable {link : World δ → CacheCommand → Link} {wiring : Wiring} {db : δ} {evs : List (Event δ)}
  {s : ChatServer δ}

/-- A step makes two calls at most, and they do what the step does. -/
theorem Keeps.step {entries : Entries} (hlink : Follows link) {s' : ChatServer δ} {e : Event δ}
    (h : Server.step wiring s e = some s') (hs : Keeps entries s.cache)
    (hroom : ∀ u, 0 ≤ s.cache.unread u ∧ s.cache.unread u + 2 < 2 ^ 63) :
    Keeps (CacheManager.enter entries (cacheCalls link s e)) s'.cache := by
  rw [step_cache h]
  cases e with
  | readBody c body w =>
    dsimp only [cacheCalls, cacheCommands]
    cases requestOf s c body with
    | none => exact hs
    | some r =>
      refine hs.enter hlink w (commandsOf w s c r) fun u => ?_
      have hlength : (commandsOf w s c r).length ≤ 2 := by
        cases r with
        | login req =>
          dsimp only [commandsOf]
          cases verifiedUser w s req <;> simp
        | message req =>
          dsimp only [commandsOf]
          split <;> simp
        | _ => exact Nat.zero_le 2
      have hu := hroom u
      omega
  | _ => exact hs

theorem keeps_of_exec (hlink : Follows link) (hlength : evs.length + 1 < 2 ^ 63)
    (h : exec (step wiring) (.init db) evs = some s) :
    Keeps (entered (callsIn link wiring db evs)) s.cache := by
  refine (exec_induction (P := fun evs s => evs.length + 1 < 2 ^ 63 →
    exec (step wiring) (.init db) evs = some s
      ∧ (∀ u, 0 ≤ s.cache.unread u ∧ s.cache.unread u ≤ evs.length)
      ∧ Keeps (entered (callsIn link wiring db evs)) s.cache) ?_ ?_ h hlength).2.2
  · exact fun _ => ⟨rfl, fun _ => ⟨Int.le_refl 0, Int.le_refl 0⟩, keeps_empty⟩
  · intro es e m t hm hstep hlength
    rw [List.length_append, List.length_singleton] at hlength
    obtain ⟨hrun, hunread, hkeeps⟩ := hm (by omega)
    refine ⟨exec_append.mpr ⟨m, hrun, exec_cons.mpr ⟨t, hstep, rfl⟩⟩, fun u => ?_, ?_⟩
    · have hu := hunread u
      have hnext := unread_step hstep u
      rw [List.length_append, List.length_singleton]
      push_cast
      omega
    · rw [callsIn, outputs_snoc hrun hstep, entered_append]
      refine hkeeps.step hlink hstep fun u => ?_
      have hu := hunread u
      omega

theorem asFormatted_callsIn (hlink : Follows link) :
    ∀ p ∈ callsIn link wiring db evs, p.1.AsFormatted := by
  intro p hp
  obtain ⟨_, e, _, m, _, _, _, _, hp⟩ := exists_of_mem_outputs hp
  cases e with
  | readBody c body w =>
    dsimp only [cacheCalls] at hp
    cases hr : requestOf m c body with
    | none =>
      rw [hr] at hp
      cases hp
    | some r =>
      rw [hr] at hp
      obtain ⟨command, _, rfl⟩ := List.mem_map.mp hp
      exact hlink.asFormatted w command
  | _ => cases hp

/-- **Redis says what the server means**: after any run, and however Redis treated the
commands, a store that they were called on gives back the user's presence, the
connection and the number of unread messages of the server's cache. -/
theorem redis_reads_back (hlink : Follows link) (hlength : evs.length + 1 < 2 ^ 63)
    (h : exec (step wiring) (.init db) evs = some s) {reply : Link}
    (hformatted : reply.AsFormatted) (hreply : reply.outcome = .answered) (u : Int32) :
    (isOnline reply (stored (callsIn link wiring db evs)) u).2
        = decide (s.cache.online u = some true)
      ∧ (∀ c, (getConnectionId reply (stored (callsIn link wiring db evs)) u).2
          = some (connIdText c) ↔ s.cache.connId u = some c)
      ∧ (getUnreadCount reply (stored (callsIn link wiring db evs)) u).2
        = if Numeral.IsInt (s.cache.unread u) then .ok (some (Int32.ofInt (s.cache.unread u)))
          else .error .outOfRange := by
  have hkeeps := keeps_of_exec hlink hlength h
  have hrepresents : Represents (stored (callsIn link wiring db evs)) _ :=
    represents_stored (asFormatted_callsIn hlink)
  have honline : (isOnline reply (stored (callsIn link wiring db evs)) u).2 = _ :=
    Answer.done.inj (hrepresents.agrees hformatted hreply (.isOnline u))
  have hconn : (getConnectionId reply (stored (callsIn link wiring db evs)) u).2 = _ :=
    Answer.connectionId.inj (hrepresents.agrees hformatted hreply (.getConnectionId u))
  have hcount : (getUnreadCount reply (stored (callsIn link wiring db evs)) u).2 = _ :=
    Answer.count.inj (hrepresents.agrees hformatted hreply (.getUnreadCount u))
  refine ⟨?_, fun c => ?_, ?_⟩
  · rw [honline, hkeeps.online]
  · rw [hconn, hkeeps.connId, Option.map_eq_some_iff]
    constructor
    · intro ⟨d, hd, htext⟩
      rwa [← connIdText_injective htext]
    · exact fun hc => ⟨c, hc, rfl⟩
  · rw [hcount, hkeeps.unread]

end

/-- Every command is answered, or refused, as the world says. -/
def linkOf (w : World δ) (command : CacheCommand) : Link where
  outcome := if w.redis command then .answered else .refused
  sent := id
  order := id
  order_perm := fun members => List.Perm.refl members

theorem follows_linkOf : Follows (linkOf (δ := δ)) where
  asFormatted _ _ _ := rfl
  executes := by
    intro w command
    show (if w.redis command then Outcome.answered else .refused) = .unanswered
      ∨ (if w.redis command then Outcome.answered else .refused) = .answered ↔ _
    cases w.redis command <;> simp

/-- User 1 logs in and writes to user 2, who is not there. -/
def writesToNobody : List (Event Unit) :=
  .accept 1 :: loginA 1 ++ received 1 twoAccounts (.message { toId := 2, content := [104, 105] })

theorem redis_reads_back_writesToNobody :
    (isOnline (linkOf twoAccounts (.incrementUnread 2))
        (stored (callsIn linkOf .started () writesToNobody)) 1).2 = true
      ∧ (getConnectionId (linkOf twoAccounts (.incrementUnread 2))
        (stored (callsIn linkOf .started () writesToNobody)) 1).2 = some (connIdText 1)
      ∧ (getUnreadCount (linkOf twoAccounts (.incrementUnread 2))
        (stored (callsIn linkOf .started () writesToNobody)) 2).2 = .ok (some 1) := by
  have hrun : (exec (step .started) (.init ()) writesToNobody).map (fun s =>
      (s.cache.online 1, s.cache.connId 1, s.cache.unread 2)) = some (some true, some 1, 1) := by
    decide
  obtain ⟨s, hs, hfinal⟩ := Option.map_eq_some_iff.mp hrun
  injection hfinal with honline hrest
  injection hrest with hconn hunread
  have hlength : writesToNobody.length + 1 < 2 ^ 63 := by decide
  have hformatted := follows_linkOf.asFormatted twoAccounts (.incrementUnread 2)
  have hreply : (linkOf twoAccounts (.incrementUnread 2)).outcome = .answered := rfl
  obtain ⟨hone, htext, _⟩ := redis_reads_back follows_linkOf hlength hs hformatted hreply 1
  obtain ⟨_, _, htwo⟩ := redis_reads_back follows_linkOf hlength hs hformatted hreply 2
  rw [honline] at hone
  rw [hunread] at htwo
  exact ⟨hone, (htext 1).mpr hconn, htwo⟩

end QQChat.CacheManager
