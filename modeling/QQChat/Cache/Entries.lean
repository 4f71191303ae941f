import Mathlib.Data.Finset.Dedup
import Mathlib.Data.Finset.Basic
import Mathlib.Data.List.Perm.Basic
import Mathlib.Data.Set.List
import QQChat.Cache.Manager

/-!
# What the cache keeps

Per user four entries: whether they are online, the connection they are on, a set of
friends, and a count of unread messages. `Entries` is the cache as a mapping, `Call` the
members of `CacheManager`, and `Call.apply` and `Call.Agrees` say what each of them is
for. `cache_refines` is that the keys, texts and replies of Redis come to that: over any
sequence of calls, whatever becomes of each command, as long as `redisCommand` sends what
the members format.

The proof has one part per key. A command writes a single one, so the other entries stay
what they were as long as no two share a key (`Represents.write`).
-/

namespace QQChat.CacheManager

open Redis

/-! ## The entries, and what the members are for -/

structure Entries where
  online : Int32 → Option Bool := fun _ => none
  connId : Int32 → Option Bytes := fun _ => none
  friends : Int32 → Finset Int32 := fun _ => ∅
  unread : Int32 → Option Int := fun _ => none

namespace Entries

def putOnline (entries : Entries) (u : Int32) (online : Option Bool) : Entries :=
  { entries with online := Function.update entries.online u online }

def putConnId (entries : Entries) (u : Int32) (connId : Option Bytes) : Entries :=
  { entries with connId := Function.update entries.connId u connId }

def putFriends (entries : Entries) (u : Int32) (friends : Finset Int32) : Entries :=
  { entries with friends := Function.update entries.friends u friends }

def putUnread (entries : Entries) (u : Int32) (unread : Option Int) : Entries :=
  { entries with unread := Function.update entries.unread u unread }

/-- The unread messages; none are counted without an entry. -/
def count (entries : Entries) (u : Int32) : Int :=
  (entries.unread u).getD 0

/-- Count up or down, within the range of a `long long`. -/
def add (entries : Entries) (u : Int32) (d : Int) : Entries :=
  if IsLongLong (entries.count u + d) then entries.putUnread u (some (entries.count u + d))
  else entries

/-- The entry with this key goes, if there is one. -/
def erase (entries : Entries) (key : Bytes) : Entries where
  online u := if Field.online.key u = key then none else entries.online u
  connId u := if Field.conn.key u = key then none else entries.connId u
  friends u := if Field.friends.key u = key then ∅ else entries.friends u
  unread u := if Field.unread.key u = key then none else entries.unread u

/-- There is something under this field of the user. -/
def Has (entries : Entries) (u : Int32) : Field → Prop
  | .online => entries.online u ≠ none
  | .conn => entries.connId u ≠ none
  | .friends => entries.friends u ≠ ∅
  | .unread => entries.unread u ≠ none

end Entries

inductive Call where
  | setOnline (userId : Int32) (online : Bool)
  | isOnline (userId : Int32)
  | getConnectionId (userId : Int32)
  | setConnectionId (userId : Int32) (connId : Bytes)
  | removeConnectionId (userId : Int32)
  | addFriend (userId friendId : Int32)
  | removeFriend (userId friendId : Int32)
  | getFriends (userId : Int32)
  | clearFriends (userId : Int32)
  | incrementUnread (userId : Int32)
  | decrementUnread (userId : Int32)
  | getUnreadCount (userId : Int32)
  | clearUnread (userId : Int32)
  | deleteKey (key : Bytes)
  | existsKey (key : Bytes)
  deriving DecidableEq, Repr

/-- What a member returns. -/
inductive Answer where
  | done (success : Bool)
  | connectionId (connId : Option Bytes)
  | friends (friends : Except Numeral.StoiError (Option (List Int32)))
  | count (count : Except Numeral.StoiError (Option Int32))

/-- The member, called. -/
def Call.perform (link : Link) (store : Store) : Call → Store × Answer
  | .setOnline u online => (CacheManager.setOnline link store u online).map id .done
  | .isOnline u => (CacheManager.isOnline link store u).map id .done
  | .getConnectionId u => (CacheManager.getConnectionId link store u).map id .connectionId
  | .setConnectionId u connId => (CacheManager.setConnectionId link store u connId).map id .done
  | .removeConnectionId u => (CacheManager.removeConnectionId link store u).map id .done
  | .addFriend u f => (CacheManager.addFriend link store u f).map id .done
  | .removeFriend u f => (CacheManager.removeFriend link store u f).map id .done
  | .getFriends u => (CacheManager.getFriends link store u).map id .friends
  | .clearFriends u => (CacheManager.clearFriends link store u).map id .done
  | .incrementUnread u => (CacheManager.incrementUnread link store u).map id .done
  | .decrementUnread u => (CacheManager.decrementUnread link store u).map id .done
  | .getUnreadCount u => (CacheManager.getUnreadCount link store u).map id .count
  | .clearUnread u => (CacheManager.clearUnread link store u).map id .done
  | .deleteKey key => (CacheManager.deleteKey link store key).map id .done
  | .existsKey key => (CacheManager.existsKey link store key).map id .done

/-- What a call does to the entries, if Redis executes its command. -/
def Call.apply (entries : Entries) : Call → Entries
  | .setOnline u online => entries.putOnline u (some online)
  | .setConnectionId u connId => entries.putConnId u (some (cStr connId))
  | .removeConnectionId u => entries.putConnId u none
  | .addFriend u f => entries.putFriends u (insert f (entries.friends u))
  | .removeFriend u f => entries.putFriends u ((entries.friends u).erase f)
  | .clearFriends u => entries.putFriends u ∅
  | .incrementUnread u => entries.add u 1
  | .decrementUnread u => entries.add u (-1)
  | .clearUnread u => entries.putUnread u (some 0)
  | .deleteKey key => entries.erase (cStr key)
  | .isOnline _ | .getConnectionId _ | .getFriends _ | .getUnreadCount _ | .existsKey _ => entries

/-- What a call answers when its command is answered. -/
def Call.Agrees (entries : Entries) : Call → Answer → Prop
  | .isOnline u, answer => answer = .done (entries.online u = some true)
  | .getConnectionId u, answer => answer = .connectionId (entries.connId u)
  | .getFriends u, answer => ∃ friends, answer = .friends (.ok (some friends))
      ∧ friends.Nodup ∧ ∀ f, f ∈ friends ↔ f ∈ entries.friends u
  | .incrementUnread u, answer => answer = .done (IsLongLong (entries.count u + 1))
  | .decrementUnread u, answer => answer = .done (IsLongLong (entries.count u - 1))
  | .getUnreadCount u, answer => answer = .count
      (if Numeral.IsInt (entries.count u) then .ok (some (Int32.ofInt (entries.count u)))
        else .error .outOfRange)
  | .existsKey key, answer => ∃ found, answer = .done found
      ∧ (found = true ↔ ∃ field u, Field.key field u = cStr key ∧ entries.Has u field)
  | .setOnline _ _, answer | .setConnectionId _ _, answer | .removeConnectionId _, answer
  | .addFriend _ _, answer | .removeFriend _ _, answer | .clearFriends _, answer
  | .clearUnread _, answer | .deleteKey _, answer => answer = .done true

/-- What a call answers when its command is not answered. -/
def Call.unanswered (link : Link) : Call → Answer
  | .getConnectionId _ => .connectionId none
  | .getFriends _ => .friends (.ok none)
  | .getUnreadCount _ => .count (.ok none)
  | .removeConnectionId _ | .clearFriends _ | .deleteKey _ =>
    .done (link.outcome ≠ .unconnected)
  | _ => .done false

/-! ## The entries in a store -/

/-- A friend's id, as it is stored. -/
def idText (f : Int32) : Bytes :=
  Numeral.toString f.toInt

/-- What a store has under a field of a user. -/
def Stored (entries : Entries) (u : Int32) : Field → Option Value → Prop
  | .online, v => v = (entries.online u).map fun b => .string (flag b)
  | .conn, v => v = (entries.connId u).map .string
  | .friends, v => ∃ members : List Int32, members.Nodup
      ∧ (∀ f, f ∈ members ↔ f ∈ entries.friends u) ∧ v = Store.ofMembers (members.map idText)
  | .unread, v => v = (entries.unread u).map (fun n => .string (Numeral.toString n))
      ∧ ∀ n ∈ entries.unread u, IsLongLong n

/-- The store holds these entries and nothing else. -/
structure Represents (store : Store) (entries : Entries) : Prop where
  stored : ∀ field u, Stored entries u field (store (field.key u))
  other : ∀ key, (∀ field u, Field.key field u ≠ key) → store key = none

theorem represents_empty : Represents (fun _ => none) {} where
  stored := by
    intro field u
    cases field with
    | online => rfl
    | conn => rfl
    | friends => exact ⟨[], List.nodup_nil, fun f => by simp, rfl⟩
    | unread => exact ⟨rfl, fun n hn => by cases hn⟩
  other _ _ := rfl

theorem idText_injective : Function.Injective idText := fun _ _ h =>
  Int32.toInt_inj.mp (Numeral.toString_injective h)

section

variable {store : Store} {entries entries' : Entries} {u : Int32}

/-- A write of one entry leaves the others alone. -/
theorem Represents.write (h : Represents store entries) {field : Field} {v : Option Value}
    (hframe : ∀ field' u', ¬ (field' = field ∧ u' = u) →
      ∀ v', Stored entries u' field' v' → Stored entries' u' field' v')
    (hnew : Stored entries' u field v) :
    Represents (Function.update store (field.key u) v) entries' where
  stored := by
    intro field' u'
    by_cases heq : field' = field ∧ u' = u
    · rw [heq.1, heq.2, Function.update_self]
      exact hnew
    · rw [Function.update_of_ne (fun hkey => heq (Field.key_inj.mp hkey))]
      exact hframe field' u' heq _ (h.stored field' u')
  other := by
    intro key hkey
    rw [Function.update_of_ne (fun heq => hkey field u heq.symm)]
    exact h.other key hkey

/-- What a put leaves alone. -/
theorem stored_of_frame {field' : Field} {u' : Int32}
    (honline : field' = .online → entries'.online u' = entries.online u')
    (hconn : field' = .conn → entries'.connId u' = entries.connId u')
    (hfriends : field' = .friends → entries'.friends u' = entries.friends u')
    (hunread : field' = .unread → entries'.unread u' = entries.unread u') :
    ∀ v', Stored entries u' field' v' → Stored entries' u' field' v' := by
  intro v' hv
  cases field' with
  | online => rwa [Stored, honline rfl]
  | conn => rwa [Stored, hconn rfl]
  | friends => rwa [Stored, hfriends rfl]
  | unread => rwa [Stored, hunread rfl]

theorem Represents.putOnline (h : Represents store entries) (online : Bool) :
    Represents (Function.update store (Field.online.key u) (some (.string (flag online))))
      (entries.putOnline u (some online)) := by
  refine h.write (fun field' u' hne => stored_of_frame (fun hf => ?_) (fun _ => rfl)
    (fun _ => rfl) (fun _ => rfl)) ?_
  · exact Function.update_of_ne (fun hu => hne ⟨hf, hu⟩) ..
  · show _ = Option.map _ (Function.update entries.online u (some online) u)
    rw [Function.update_self]
    rfl

theorem Represents.putConnId (h : Represents store entries) (connId : Option Bytes) :
    Represents (Function.update store (Field.conn.key u) (connId.map .string))
      (entries.putConnId u connId) := by
  refine h.write (fun field' u' hne => stored_of_frame (fun _ => rfl) (fun hf => ?_)
    (fun _ => rfl) (fun _ => rfl)) ?_
  · exact Function.update_of_ne (fun hu => hne ⟨hf, hu⟩) ..
  · show _ = Option.map _ (Function.update entries.connId u connId u)
    rw [Function.update_self]

theorem Represents.putFriends (h : Represents store entries) {members : List Int32}
    {friends : Finset Int32} (hnodup : members.Nodup) (hmem : ∀ f, f ∈ members ↔ f ∈ friends) :
    Represents
      (Function.update store (Field.friends.key u) (Store.ofMembers (members.map idText)))
      (entries.putFriends u friends) := by
  refine h.write (fun field' u' hne => stored_of_frame (fun _ => rfl) (fun _ => rfl)
    (fun hf => ?_) (fun _ => rfl)) ⟨members, hnodup, ?_, rfl⟩
  · exact Function.update_of_ne (fun hu => hne ⟨hf, hu⟩) ..
  · show ∀ f, f ∈ members ↔ f ∈ Function.update entries.friends u friends u
    rwa [Function.update_self]

theorem Represents.putUnread (h : Represents store entries) {n : Int} (hn : IsLongLong n) :
    Represents
      (Function.update store (Field.unread.key u) (some (.string (Numeral.toString n))))
      (entries.putUnread u (some n)) := by
  refine h.write (fun field' u' hne => stored_of_frame (fun _ => rfl) (fun _ => rfl)
    (fun _ => rfl) (fun hf => ?_)) ?_
  · exact Function.update_of_ne (fun hu => hne ⟨hf, hu⟩) ..
  · show _ = Option.map _ (Function.update entries.unread u (some n) u) ∧
      ∀ m ∈ Function.update entries.unread u (some n) u, _
    rw [Function.update_self]
    exact ⟨rfl, fun m hm => by cases hm; exact hn⟩

/-- A key deleted, whatever it is. -/
theorem Represents.erase (h : Represents store entries) (key : Bytes) :
    Represents (Function.update store key none) (entries.erase key) where
  stored := by
    intro field v
    by_cases hkey : field.key v = key
    · rw [hkey, Function.update_self]
      cases field with
      | online =>
        have hnone : (entries.erase key).online v = none := if_pos hkey
        rw [Stored, hnone]
        rfl
      | conn =>
        have hnone : (entries.erase key).connId v = none := if_pos hkey
        rw [Stored, hnone]
        rfl
      | friends =>
        refine ⟨[], List.nodup_nil, fun f => ?_, rfl⟩
        show _ ↔ f ∈ if Field.friends.key v = key then ∅ else _
        rw [if_pos hkey]
        simp
      | unread =>
        have hnone : (entries.erase key).unread v = none := if_pos hkey
        refine ⟨by rw [hnone]; rfl, fun n hn => ?_⟩
        rw [hnone] at hn
        cases hn
    · rw [Function.update_of_ne hkey]
      refine stored_of_frame (fun hf => ?_) (fun hf => ?_) (fun hf => ?_) (fun hf => ?_) _
        (h.stored field v)
      all_goals
        subst hf
        exact if_neg hkey
  other := by
    intro key' hkey
    by_cases heq : key' = key
    · rw [heq, Function.update_self]
    · rw [Function.update_of_ne heq]
      exact h.other key' hkey

/-! ## The commands on such a store -/

/-- The members of a user's set of friends. -/
theorem Represents.membersOf (h : Represents store entries) (u : Int32) :
    ∃ members : List Int32, members.Nodup ∧ (∀ f, f ∈ members ↔ f ∈ entries.friends u)
      ∧ store.membersOf (Field.friends.key u) = some (members.map idText) := by
  obtain ⟨members, hnodup, hmem, hstored⟩ := h.stored .friends u
  refine ⟨members, hnodup, hmem, ?_⟩
  unfold Store.membersOf
  rw [hstored]
  unfold Store.ofMembers
  cases members with
  | nil => rfl
  | cons f members => rfl

/-- `INCR` and `DECR`: one more or one less, unless that is no `long long`. -/
theorem Represents.add (h : Represents store entries) (u : Int32) {d : Int} (hd : IsLongLong d) :
    Represents (store.add (Field.unread.key u) d).1 (entries.add u d)
      ∧ ((store.add (Field.unread.key u) d).2 ≠ .error ↔ IsLongLong (entries.count u + d)) := by
  obtain ⟨hstored, hrange⟩ := h.stored .unread u
  unfold Store.add Entries.add
  cases hunread : entries.unread u with
  | none =>
    have hcount : entries.count u + d = d := by
      rw [Entries.count, hunread, Option.getD_none, Int.zero_add]
    rw [hstored, hunread, hcount, if_pos hd]
    exact ⟨h.putUnread hd, iff_of_true (by simp) hd⟩
  | some n =>
    have hcount : entries.count u = n := by rw [Entries.count, hunread, Option.getD_some]
    rw [hstored, hunread, hcount]
    dsimp only [Option.map_some]
    rw [counterOf_toString (hrange n hunread)]
    dsimp only
    split
    next hsum => exact ⟨h.putUnread hsum, iff_of_true (by simp) hsum⟩
    next hsum => exact ⟨h, iff_of_false (fun hne => hne rfl) hsum⟩

theorem Represents.sadd (h : Represents store entries) (order : List Bytes → List Bytes)
    (u f : Int32) :
    Represents ((Command.sadd (Field.friends.key u) (idText f)).execute order store).1
        (entries.putFriends u (insert f (entries.friends u)))
      ∧ ((Command.sadd (Field.friends.key u) (idText f)).execute order store).2 ≠ .error := by
  obtain ⟨members, hnodup, hmem, hmembers⟩ := h.membersOf u
  simp only [Command.execute, hmembers]
  by_cases hf : f ∈ members
  · have hsame : insert f (entries.friends u) = entries.friends u :=
      Finset.insert_eq_self.mpr ((hmem f).mp hf)
    rw [if_pos ((List.mem_map_of_injective idText_injective).mpr hf), hsame]
    refine ⟨?_, by simp⟩
    rwa [Entries.putFriends, Function.update_eq_self]
  · rw [if_neg (fun hmap => hf ((List.mem_map_of_injective idText_injective).mp hmap))]
    refine ⟨?_, by simp⟩
    have happend : members.map idText ++ [idText f] = (members ++ [f]).map idText := by
      rw [List.map_append]
      rfl
    rw [happend]
    refine h.putFriends (List.nodup_append.mpr ⟨hnodup, List.nodup_singleton f, ?_⟩) fun g => ?_
    · rintro a ha b hb rfl
      exact hf (List.mem_singleton.mp hb ▸ ha)
    · rw [List.mem_append, List.mem_singleton, Finset.mem_insert, hmem g, or_comm]

theorem Represents.srem (h : Represents store entries) (order : List Bytes → List Bytes)
    (u f : Int32) :
    Represents ((Command.srem (Field.friends.key u) (idText f)).execute order store).1
        (entries.putFriends u ((entries.friends u).erase f))
      ∧ ((Command.srem (Field.friends.key u) (idText f)).execute order store).2 ≠ .error := by
  obtain ⟨members, hnodup, hmem, hmembers⟩ := h.membersOf u
  simp only [Command.execute, hmembers]
  by_cases hf : f ∈ members
  · rw [if_pos ((List.mem_map_of_injective idText_injective).mpr hf)]
    refine ⟨?_, by simp⟩
    rw [← List.map_erase idText_injective]
    refine h.putFriends (hnodup.erase f) fun g => ?_
    rw [hnodup.mem_erase_iff, Finset.mem_erase, hmem g]
  · have hsame : (entries.friends u).erase f = entries.friends u :=
      Finset.erase_eq_of_notMem fun hin => hf ((hmem f).mpr hin)
    rw [if_neg (fun hmap => hf ((List.mem_map_of_injective idText_injective).mp hmap)), hsame]
    refine ⟨?_, by simp⟩
    rwa [Entries.putFriends, Function.update_eq_self]

/-- The loop of `get_friends` reads back what `add_friend` stores. -/
theorem friendIds_map (friends : List Int32) : friendIds (friends.map idText) = .ok friends := by
  induction friends with
  | nil => rfl
  | cons f friends ih =>
    have hstoi : Numeral.stoi (idText f) = .ok (f, (idText f).length) := by
      unfold idText
      rw [Numeral.stoi_toString, if_pos (Numeral.isInt_toInt f), Int32.ofInt_toInt]
    rw [List.map_cons, friendIds, hstoi, ih]
    rfl

theorem Represents.smembers (h : Represents store entries) (link : Link) (u : Int32) :
    ∃ friends : List Int32, friends.Nodup ∧ (∀ f, f ∈ friends ↔ f ∈ entries.friends u)
      ∧ (Command.smembers (Field.friends.key u)).execute link.order store
        = (store, .array (friends.map idText)) := by
  obtain ⟨members, hnodup, hmem, hmembers⟩ := h.membersOf u
  have hperm := link.order_perm (members.map idText)
  -- Every element is the text of an id, in whatever order.
  have hrange : link.order (members.map idText) ∈ Set.range (List.map idText) := by
    rw [Set.range_list_map]
    intro element helement
    obtain ⟨f, _, hf⟩ := List.mem_map.mp (hperm.mem_iff.mp helement)
    exact ⟨f, hf⟩
  obtain ⟨friends, hfriends⟩ := hrange
  rw [← hfriends, List.map_perm_map_iff idText_injective] at hperm
  refine ⟨friends, hperm.nodup_iff.mpr hnodup, fun f => (hperm.mem_iff).trans (hmem f), ?_⟩
  simp only [Command.execute, hmembers, hfriends]

/-! ## The members -/

/-- The command a member sends. -/
def Call.command : Call → Command
  | .setOnline u online => .set (Field.online.key u) (flag online)
  | .isOnline u => .get (Field.online.key u)
  | .getConnectionId u => .get (Field.conn.key u)
  | .setConnectionId u connId => .set (Field.conn.key u) (cStr connId)
  | .removeConnectionId u => .del (Field.conn.key u)
  | .addFriend u f => .sadd (Field.friends.key u) (idText f)
  | .removeFriend u f => .srem (Field.friends.key u) (idText f)
  | .getFriends u => .smembers (Field.friends.key u)
  | .clearFriends u => .del (Field.friends.key u)
  | .incrementUnread u => .incr (Field.unread.key u)
  | .decrementUnread u => .decr (Field.unread.key u)
  | .getUnreadCount u => .get (Field.unread.key u)
  | .clearUnread u => .set (Field.unread.key u) [48]
  | .deleteKey key => .del (cStr key)
  | .existsKey key => .exists (cStr key)

theorem Call.perform_fst (link : Link) (store : Store) (call : Call) :
    (call.perform link store).1 = (safeCommand link store call.command).1 := by
  cases call with
  | deleteKey key => rfl
  | existsKey key => rfl
  | _ => rw [Call.command, ← Field.cStr_key]; rfl

theorem execute_get_fst (order : List Bytes → List Bytes) (store : Store) (key : Bytes) :
    ((Command.get key).execute order store).1 = store := by
  rw [Command.execute]
  split <;> rfl

/-- **What a member's command does to the entries.** -/
theorem Represents.apply (h : Represents store entries) (order : List Bytes → List Bytes)
    (hperm : ∀ members, (order members).Perm members) (call : Call) :
    Represents (call.command.execute order store).1 (call.apply entries) := by
  cases call with
  | setOnline u online => exact h.putOnline online
  | setConnectionId u connId => exact h.putConnId (some (cStr connId))
  | removeConnectionId u => exact h.putConnId none
  | addFriend u f => exact (h.sadd order u f).1
  | removeFriend u f => exact (h.srem order u f).1
  | getFriends u =>
    obtain ⟨friends, _, _, heq⟩ := h.smembers ⟨.answered, id, order, hperm⟩ u
    rw [Call.command, heq]
    exact h
  | clearFriends u =>
    have hempty : ∀ f : Int32, f ∈ [] ↔ f ∈ (∅ : Finset Int32) := fun f => by simp
    exact h.putFriends List.nodup_nil hempty
  | incrementUnread u => exact (h.add u (by decide)).1
  | decrementUnread u => exact (h.add u (by decide)).1
  | clearUnread u => exact h.putUnread (n := 0) (by decide)
  | deleteKey key => exact h.erase (cStr key)
  | existsKey key => exact h
  | _ =>
    rw [Call.command, execute_get_fst]
    exact h

theorem flag_eq_one_iff (b : Bool) : flag b = [49] ↔ b = true := by
  cases b <;> decide

theorem Represents.isSome_iff (h : Represents store entries) (key : Bytes) :
    (store key).isSome = true
      ↔ ∃ field u, Field.key field u = key ∧ entries.Has u field := by
  constructor
  · intro hsome
    by_cases hkey : ∃ field u, Field.key field u = key
    · obtain ⟨field, u, rfl⟩ := hkey
      refine ⟨field, u, rfl, ?_⟩
      have hstored := h.stored field u
      cases field with
      | online =>
        intro hnone
        rw [hstored, hnone] at hsome
        cases hsome
      | conn =>
        intro hnone
        rw [hstored, hnone] at hsome
        cases hsome
      | friends =>
        obtain ⟨members, _, hmem, hset⟩ := hstored
        intro hnone
        have hnil : members = [] := List.eq_nil_iff_forall_not_mem.mpr fun f hf => by
          rw [hmem f, hnone] at hf
          exact absurd hf (Finset.notMem_empty f)
        rw [hset, hnil] at hsome
        cases hsome
      | unread =>
        intro hnone
        rw [hstored.1, hnone] at hsome
        cases hsome
    · rw [h.other key fun field u heq => hkey ⟨field, u, heq⟩] at hsome
      cases hsome
  · intro ⟨field, u, hkey, hhas⟩
    subst hkey
    have hstored := h.stored field u
    cases field with
    | online =>
      obtain ⟨b, hb⟩ := Option.ne_none_iff_exists'.mp hhas
      rw [hstored, hb]
      rfl
    | conn =>
      obtain ⟨connId, hconn⟩ := Option.ne_none_iff_exists'.mp hhas
      rw [hstored, hconn]
      rfl
    | friends =>
      obtain ⟨members, _, hmem, hset⟩ := hstored
      obtain ⟨f, hf⟩ := Finset.nonempty_iff_ne_empty.mpr hhas
      obtain ⟨g, rest, hrest⟩ := List.exists_cons_of_ne_nil (List.ne_nil_of_mem ((hmem f).mpr hf))
      rw [hset, hrest]
      rfl
    | unread =>
      obtain ⟨n, hn⟩ := Option.ne_none_iff_exists'.mp hhas
      rw [hstored.1, hn]
      rfl

/-- **What a member returns when its command is answered.** -/
theorem Represents.agrees (h : Represents store entries) {link : Link}
    (hformatted : link.AsFormatted) (hlink : link.outcome = .answered) (call : Call) :
    call.Agrees entries (call.perform link store).2 := by
  have hsucceeds := succeeds_answered hformatted hlink store
  have hreply := safeCommand_answered hformatted hlink store
  have hdeletes : ∀ key, (deletes link store key).2 = true := fun key =>
    decide_eq_true (by rw [hlink]; decide)
  have hset : ∀ key value, (succeeds link store (.set key value)).2 = true := fun key value =>
    (hsucceeds _).trans (decide_eq_true fun heq => by cases heq)
  cases call with
  | setOnline u online => exact congrArg Answer.done (hset _ _)
  | setConnectionId u connId => exact congrArg Answer.done (hset _ _)
  | clearUnread u => exact congrArg Answer.done (hset _ _)
  | removeConnectionId u => exact congrArg Answer.done (hdeletes (Field.conn.key u))
  | clearFriends u => exact congrArg Answer.done (hdeletes (Field.friends.key u))
  | deleteKey key => exact congrArg Answer.done (hdeletes key)
  | addFriend u f =>
    refine congrArg Answer.done ((hsucceeds _).trans (decide_eq_true ?_))
    rw [Field.cStr_key]
    exact (h.sadd link.order u f).2
  | removeFriend u f =>
    refine congrArg Answer.done ((hsucceeds _).trans (decide_eq_true ?_))
    rw [Field.cStr_key]
    exact (h.srem link.order u f).2
  | incrementUnread u =>
    refine congrArg Answer.done ((hsucceeds _).trans (decide_eq_decide.mpr ?_))
    rw [Field.cStr_key]
    exact (h.add u (d := 1) (by decide)).2
  | decrementUnread u =>
    refine congrArg Answer.done ((hsucceeds _).trans (decide_eq_decide.mpr ?_))
    rw [Field.cStr_key]
    exact (h.add u (d := -1) (by decide)).2
  | isOnline u =>
    refine congrArg Answer.done ?_
    have hstored : store (Field.online.key u) = (entries.online u).map _ := h.stored .online u
    show decide ((safeCommand link store (.get (cStr (Field.online.key u)))).2
      = some (.string [49])) = _
    rw [hreply, Field.cStr_key, Command.execute, hstored]
    cases entries.online u with
    | none => rfl
    | some online =>
      refine decide_eq_decide.mpr ?_
      dsimp only [Option.map_some]
      rw [Option.some_inj, Option.some_inj, Reply.string.injEq]
      exact flag_eq_one_iff online
  | getConnectionId u =>
    refine congrArg Answer.connectionId ?_
    show replyText (safeCommand link store (.get (cStr (Field.conn.key u)))).2 = _
    have hstored : store (Field.conn.key u) = (entries.connId u).map _ := h.stored .conn u
    rw [hreply, Field.cStr_key, Command.execute, hstored]
    cases entries.connId u <;> rfl
  | getFriends u =>
    obtain ⟨friends, hnodup, hmem, heq⟩ := h.smembers link u
    refine ⟨friends, congrArg Answer.friends ?_, hnodup, hmem⟩
    show replyFriends (safeCommand link store (.smembers (cStr (Field.friends.key u)))).2 = _
    rw [hreply, Field.cStr_key, heq, replyFriends, friendIds_map]
    rfl
  | getUnreadCount u =>
    refine congrArg Answer.count ?_
    show replyCount (safeCommand link store (.get (cStr (Field.unread.key u)))).2 = _
    obtain ⟨hstored, _⟩ := h.stored .unread u
    rw [hreply, Field.cStr_key, Command.execute, hstored, Entries.count]
    cases entries.unread u with
    | none => rfl
    | some n =>
      dsimp only [Option.map_some, Option.getD_some]
      rw [replyCount, Numeral.stoi_toString]
      split <;> rfl
  | existsKey key =>
    refine ⟨_, rfl, ?_⟩
    show replyPositive (safeCommand link store (.exists (cStr key))).2 = true ↔ _
    rw [hreply, Command.execute, replyPositive, ← h.isSome_iff]
    cases store (cStr key) <;> simp

theorem Call.perform_unanswered {link : Link} (hlink : link.outcome ≠ .answered) (store : Store)
    (call : Call) : (call.perform link store).2 = call.unanswered link := by
  have hnone : ∀ command, (safeCommand link store command).2 = none := by
    intro command
    unfold safeCommand
    cases hout : link.outcome with
    | answered => exact absurd hout hlink
    | _ => rfl
  have hsucceeds : ∀ command, (succeeds link store command).2 = false := by
    intro command
    show ((safeCommand link store command).2.isSome && _) = _
    rw [hnone]
    rfl
  cases call with
  | isOnline u =>
    show Answer.done (decide ((safeCommand link store _).2 = some (.string [49]))) = _
    rw [hnone]
    rfl
  | getConnectionId u =>
    show Answer.connectionId (replyText (safeCommand link store _).2) = _
    rw [hnone]
    rfl
  | getFriends u =>
    show Answer.friends (replyFriends (safeCommand link store _).2) = _
    rw [hnone]
    rfl
  | getUnreadCount u =>
    show Answer.count (replyCount (safeCommand link store _).2) = _
    rw [hnone]
    rfl
  | existsKey key =>
    show Answer.done (replyPositive (safeCommand link store _).2) = _
    rw [hnone]
    rfl
  | removeConnectionId u => rfl
  | clearFriends u => rfl
  | deleteKey key => rfl
  | _ => exact congrArg Answer.done (hsucceeds _)

end

/-! ## Call after call -/

/-- The store after some calls. -/
def stored (calls : List (Link × Call)) : Store :=
  calls.foldl (fun store p => (p.2.perform p.1 store).1) fun _ => none

/-- The entries after the calls that Redis executed. -/
def entered (calls : List (Link × Call)) : Entries :=
  calls.foldl (fun entries p => if p.1.Executes then p.2.apply entries else entries) {}

theorem represents_stored {calls : List (Link × Call)} (h : ∀ p ∈ calls, p.1.AsFormatted) :
    Represents (stored calls) (entered calls) := by
  suffices haux : ∀ {store entries}, Represents store entries →
      Represents (calls.foldl (fun store p => (p.2.perform p.1 store).1) store)
        (calls.foldl (fun entries p => if p.1.Executes then p.2.apply entries else entries) entries)
    from haux represents_empty
  induction calls with
  | nil => exact fun h => h
  | cons p calls ih =>
    obtain ⟨hfirst, hrest⟩ := List.forall_mem_cons.mp h
    intro store entries h
    refine ih hrest ?_
    dsimp only
    rw [Call.perform_fst, safeCommand_fst hfirst]
    split
    · exact h.apply p.1.order p.1.order_perm p.2
    · exact h

/-- **The cache is what it is for**: after any calls whose commands were sent as they were
formatted, the store holds the entries that the executed ones make, and the next such call
returns what is to be known of them — if its command is answered; if not, it says so. -/
theorem cache_refines {calls : List (Link × Call)} (hcalls : ∀ p ∈ calls, p.1.AsFormatted)
    {link : Link} (hlink : link.AsFormatted) (call : Call) :
    Represents (stored calls) (entered calls)
      ∧ (link.outcome = .answered →
        call.Agrees (entered calls) (call.perform link (stored calls)).2)
      ∧ (link.outcome ≠ .answered →
        (call.perform link (stored calls)).2 = call.unanswered link) :=
  ⟨represents_stored hcalls,
    fun hanswered => (represents_stored hcalls).agrees hlink hanswered call,
    fun hnone => call.perform_unanswered hnone _⟩

/-- Commands as they are formatted, and sets in reverse. -/
def reversing (outcome : Outcome) : Link where
  outcome
  sent := id
  order := List.reverse
  order_perm := fun members => members.reverse_perm

/-- User 1 gets three friends, as far as Redis hears of it. -/
def threeFriends : List (Link × Call) :=
  [(reversing .answered, .addFriend 1 2), (reversing .unanswered, .addFriend 1 3),
    (reversing .refused, .addFriend 1 4)]

theorem cache_refines_threeFriends : ∃ friends,
    ((Call.getFriends 1).perform (reversing .answered) (stored threeFriends)).2
        = .friends (.ok (some friends))
      ∧ friends.Nodup ∧ ∀ f, f ∈ friends ↔ f = 3 ∨ f = 2 := by
  have hformatted : ∀ outcome, (reversing outcome).AsFormatted := fun _ _ => rfl
  have hcalls : ∀ p ∈ threeFriends, p.1.AsFormatted := by
    intro p hp
    simp only [threeFriends, List.mem_cons, List.not_mem_nil, or_false] at hp
    rcases hp with rfl | rfl | rfl <;> exact hformatted _
  obtain ⟨_, hanswered, _⟩ := cache_refines hcalls (hformatted .answered) (.getFriends 1)
  obtain ⟨friends, heq, hnodup, hmem⟩ := hanswered rfl
  refine ⟨friends, heq, hnodup, fun f => (hmem f).trans ?_⟩
  have hentered : (entered threeFriends).friends 1 = {3, 2} := by decide
  rw [hentered, Finset.mem_insert, Finset.mem_singleton]

/-- Keys that are lost on the way: the one user's presence is the other's. -/
example :
    let shared : Link := {
      reversing .answered with
      sent := fun
        | .set _ value => .set [16] value
        | .get _ => .get [16]
        | command => command }
    (isOnline shared (stored [(shared, .setOnline 1 true)]) 2).2 = true := by
  decide

end QQChat.CacheManager
