import Mathlib.Logic.Function.Basic
import QQChat.Lib.Numeral
import QQChat.Wire.Bytes

/-!
# The Redis commands of `CacheManager`

The nine commands that `cache_manager.cpp` formats and that take no time, on a store
of strings and sets.

Mirroring notes:
- A counter is a string. `INCR` and `DECR` take only the text that they would write
  themselves (`counterOf`), and refuse to leave the range of a `long long`.
- A set without members is no key at all.
- `SMEMBERS` gives the members in any order (`order`).
- A command on a value of another type changes nothing and is answered with an error;
  only `SET` and `DEL` take every value.
- `EXPIRE` and `SELECT` are left out: the first is a matter of time, and the second is
  answered before the first command.
-/

namespace QQChat.Redis

inductive Value where
  | string (str : Bytes)
  | set (members : List Bytes)
  deriving DecidableEq, Repr

abbrev Store := Bytes → Option Value

inductive Command where
  | set (key value : Bytes)
  | get (key : Bytes)
  | del (key : Bytes)
  | incr (key : Bytes)
  | decr (key : Bytes)
  | sadd (key member : Bytes)
  | srem (key member : Bytes)
  | smembers (key : Bytes)
  | exists (key : Bytes)
  deriving DecidableEq, Repr

inductive Reply where
  | status
  | error
  | integer (n : Int)
  | string (str : Bytes)
  | nil
  | array (elements : List Bytes)
  deriving DecidableEq, Repr

/-- The values of a `long long`. -/
def IsLongLong (i : Int) : Prop :=
  -2 ^ 63 ≤ i ∧ i < 2 ^ 63

instance (i : Int) : Decidable (IsLongLong i) :=
  inferInstanceAs (Decidable (_ ∧ _))

/-- The number in a string, if it is the text of one (`string2ll`). -/
def counterOf (str : Bytes) : Option Int :=
  match Numeral.strtol str with
  | none => none
  | some (i, _) => if Numeral.toString i = str ∧ IsLongLong i then some i else none

theorem counterOf_toString {i : Int} (h : IsLongLong i) :
    counterOf (Numeral.toString i) = some i := by
  unfold counterOf
  rw [Numeral.strtol_toString_self]
  exact if_pos ⟨rfl, h⟩

namespace Store

/-- What `INCR` and `DECR` do. A key that is not there counts as 0. -/
def add (store : Store) (key : Bytes) (d : Int) : Store × Reply :=
  match store key with
  | some (.set _) => (store, .error)
  | some (.string str) =>
    match counterOf str with
    | none => (store, .error)
    | some i =>
      if IsLongLong (i + d) then
        (Function.update store key (some (.string (Numeral.toString (i + d)))), .integer (i + d))
      else (store, .error)
  | none => (Function.update store key (some (.string (Numeral.toString d))), .integer d)

/-- The entry of a set with these members. -/
def ofMembers (members : List Bytes) : Option Value :=
  if members = [] then none else some (.set members)

/-- The members under a key, unless there is a string. -/
def membersOf (store : Store) (key : Bytes) : Option (List Bytes) :=
  match store key with
  | some (.string _) => none
  | some (.set members) => some members
  | none => some []

end Store

/-- A command executed: the store it leaves, and the reply. -/
def Command.execute (order : List Bytes → List Bytes) (store : Store) :
    Command → Store × Reply
  | .set key value => (Function.update store key (some (.string value)), .status)
  | .get key =>
    match store key with
    | some (.string str) => (store, .string str)
    | some (.set _) => (store, .error)
    | none => (store, .nil)
  | .del key => (Function.update store key none, .integer (if (store key).isSome then 1 else 0))
  | .incr key => store.add key 1
  | .decr key => store.add key (-1)
  | .sadd key member =>
    match store.membersOf key with
    | none => (store, .error)
    | some members =>
      if member ∈ members then (store, .integer 0)
      else (Function.update store key (Store.ofMembers (members ++ [member])), .integer 1)
  | .srem key member =>
    match store.membersOf key with
    | none => (store, .error)
    | some members =>
      if member ∈ members then
        (Function.update store key (Store.ofMembers (members.erase member)), .integer 1)
      else (store, .integer 0)
  | .smembers key =>
    match store.membersOf key with
    | none => (store, .error)
    | some members => (store, .array (order members))
  | .exists key => (store, .integer (if (store key).isSome then 1 else 0))

end QQChat.Redis
