import QQChat.Cache.Redis

/-!
# `CacheManager`

The members of `cache_manager.cpp`, each of them one Redis command, on the store that
the command is executed on.

Mirroring notes:
- `Link` is what a call meets. hiredis gives no reply once the connection has failed,
  and then the command may have been executed or not (`Outcome`).
- `safe_command` hands its `va_list` on to the variadic `redisCommand`, which takes it
  for the first argument itself. What is sent in place of the command that the member
  formats is left to `Link.sent`; it is that command only by assumption (`AsFormatted`).
- Every argument is a `const char*` or an `int`, so a text is cut at its first zero byte
  (`cStr`).
- A member returns `false` without a context and where it checks the reply; the members
  that send `DEL` do not look at theirs.
- `get_friends` appends to the vector it is given; the model has what it appends.
- `set_ttl` is left out with `EXPIRE`, and the template `pipeline`, which nothing
  instantiates. The mutex has no counterpart: one thread calls the members.
-/

namespace QQChat.CacheManager

open Redis

/-! ## One command -/

inductive Outcome where
  /-- `ctx_` is null. -/
  | unconnected
  /-- No reply, and the command was not executed. -/
  | refused
  /-- No reply, but the command was executed. -/
  | unanswered
  | answered
  deriving DecidableEq, Repr

/-- What a call meets: the fate of its command, and the order of the members of a set. -/
structure Link where
  outcome : Outcome
  /-- What `redisCommand` sends where this command is formatted. -/
  sent : Command → Command
  order : List Bytes → List Bytes
  order_perm : ∀ members, (order members).Perm members

/-- What is sent is what was formatted. -/
def Link.AsFormatted (link : Link) : Prop :=
  ∀ command, link.sent command = command

/-- Redis executes what is sent. -/
def Link.Executes (link : Link) : Prop :=
  link.outcome = .unanswered ∨ link.outcome = .answered

instance (link : Link) : Decidable link.Executes :=
  inferInstanceAs (Decidable (_ ∨ _))

/-- `c_str()`, read as text. -/
def cStr (str : Bytes) : Bytes :=
  str.takeWhile (· ≠ 0)

/-- `safe_command`. -/
def safeCommand (link : Link) (store : Store) (command : Command) : Store × Option Reply :=
  match link.outcome with
  | .unconnected => (store, none)
  | .refused => (store, none)
  | .unanswered => (((link.sent command).execute link.order store).1, none)
  | .answered =>
    let (store, reply) := (link.sent command).execute link.order store
    (store, some reply)

theorem safeCommand_fst {link : Link} (h : link.AsFormatted) (store : Store) (command : Command) :
    (safeCommand link store command).1
      = if link.Executes then (command.execute link.order store).1 else store := by
  have hsent := h command
  obtain ⟨outcome, sent, order, hperm⟩ := link
  dsimp only at hsent
  unfold safeCommand
  dsimp only
  rw [hsent]
  cases outcome <;> rfl

theorem safeCommand_answered {link : Link} (hformatted : link.AsFormatted)
    (h : link.outcome = .answered) (store : Store) (command : Command) :
    (safeCommand link store command).2 = some (command.execute link.order store).2 := by
  unfold safeCommand
  rw [h, hformatted command]

/-! ## Keys -/

/-- `build_key`. -/
def buildKey (name : Bytes) (userId : Int32) : Bytes :=
  name ++ 58 :: Numeral.toString userId.toInt

/-- `user` -/
def user : Bytes :=
  [117, 115, 101, 114]

/-- The four entries of a user. -/
inductive Field where
  | online
  | conn
  | friends
  | unread
  deriving DecidableEq, Repr

def Field.suffix : Field → Bytes
  /- `:online` -/
  | .online => [58, 111, 110, 108, 105, 110, 101]
  /- `:conn` -/
  | .conn => [58, 99, 111, 110, 110]
  /- `:friends` -/
  | .friends => [58, 102, 114, 105, 101, 110, 100, 115]
  /- `:unread` -/
  | .unread => [58, 117, 110, 114, 101, 97, 100]

def Field.key (field : Field) (userId : Int32) : Bytes :=
  buildKey user userId ++ field.suffix

/-- No two entries share a key. -/
theorem Field.key_inj {field field' : Field} {u v : Int32} :
    field.key u = field'.key v ↔ field = field' ∧ u = v := by
  constructor
  · intro h
    have hhead : ∀ f : Field, ∀ c, f.suffix.head? = some c → Numeral.isDigit c = false := by
      intro f c hc
      cases f <;> cases hc <;> rfl
    unfold Field.key buildKey at h
    rw [List.append_assoc, List.append_assoc, List.append_right_inj, List.cons_append,
      List.cons_append, List.cons_inj_right] at h
    obtain ⟨hid, hsuffix⟩ := Numeral.toString_append_inj (hhead field) (hhead field') h
    refine ⟨?_, Int32.toInt_inj.mp hid⟩
    cases field <;> cases field' <;> first | rfl | exact absurd hsuffix (by decide)
  · intro ⟨hfield, hu⟩
    rw [hfield, hu]

theorem Field.cStr_key (field : Field) (userId : Int32) :
    cStr (field.key userId) = field.key userId := by
  refine List.takeWhile_eq_self_iff.mpr fun c hc => decide_eq_true fun hzero => ?_
  rw [hzero] at hc
  unfold Field.key buildKey at hc
  rcases List.mem_append.mp hc with hc | hc
  · rcases List.mem_append.mp hc with hc | hc
    · exact absurd hc (by decide)
    · rcases List.mem_cons.mp hc with hc | hc
      · exact absurd hc (by decide)
      · exact Numeral.zero_notMem_toString _ hc
  · cases field <;> exact absurd hc (by decide)

/-! ## The members -/

section

variable (link : Link) (store : Store)

/-- A member that reports whether its command was answered without an error. -/
def succeeds (command : Command) : Store × Bool :=
  let (store, reply) := safeCommand link store command
  (store, reply.isSome && reply ≠ some .error)

/-- A member that sends `DEL` and only checks that there is a context. -/
def deletes (key : Bytes) : Store × Bool :=
  ((safeCommand link store (.del (cStr key))).1, link.outcome ≠ .unconnected)

/-- `%d` of a `bool` -/
def flag (b : Bool) : Bytes :=
  if b then [49] else [48]

def setOnline (userId : Int32) (online : Bool) : Store × Bool :=
  succeeds link store (.set (cStr (Field.online.key userId)) (flag online))

def isOnline (userId : Int32) : Store × Bool :=
  let (store, reply) := safeCommand link store (.get (cStr (Field.online.key userId)))
  (store, reply = some (.string [49]))

/-- The text in a reply. -/
def replyText : Option Reply → Option Bytes
  | some (.string str) => some str
  | _ => none

def getConnectionId (userId : Int32) : Store × Option Bytes :=
  let (store, reply) := safeCommand link store (.get (cStr (Field.conn.key userId)))
  (store, replyText reply)

def setConnectionId (userId : Int32) (connId : Bytes) : Store × Bool :=
  succeeds link store (.set (cStr (Field.conn.key userId)) (cStr connId))

def removeConnectionId (userId : Int32) : Store × Bool :=
  deletes link store (Field.conn.key userId)

def addFriend (userId friendId : Int32) : Store × Bool :=
  succeeds link store
    (.sadd (cStr (Field.friends.key userId)) (Numeral.toString friendId.toInt))

def removeFriend (userId friendId : Int32) : Store × Bool :=
  succeeds link store
    (.srem (cStr (Field.friends.key userId)) (Numeral.toString friendId.toInt))

/-- The loop of `get_friends`: `std::stoi` of one element after the other. -/
def friendIds : List Bytes → Except Numeral.StoiError (List Int32)
  | [] => .ok []
  | element :: elements => do
    let (friendId, _) ← Numeral.stoi element
    let friends ← friendIds elements
    return friendId :: friends

def replyFriends : Option Reply → Except Numeral.StoiError (Option (List Int32))
  | some (.array elements) => (friendIds elements).map some
  | _ => .ok none

/-- `none` is `return false`. -/
def getFriends (userId : Int32) :
    Store × Except Numeral.StoiError (Option (List Int32)) :=
  let (store, reply) := safeCommand link store (.smembers (cStr (Field.friends.key userId)))
  (store, replyFriends reply)

def clearFriends (userId : Int32) : Store × Bool :=
  deletes link store (Field.friends.key userId)

def incrementUnread (userId : Int32) : Store × Bool :=
  succeeds link store (.incr (cStr (Field.unread.key userId)))

def decrementUnread (userId : Int32) : Store × Bool :=
  succeeds link store (.decr (cStr (Field.unread.key userId)))

def replyCount : Option Reply → Except Numeral.StoiError (Option Int32)
  | some (.string str) => (Numeral.stoi str).map fun p => some p.1
  | some .nil => .ok (some 0)
  | _ => .ok none

def getUnreadCount (userId : Int32) : Store × Except Numeral.StoiError (Option Int32) :=
  let (store, reply) := safeCommand link store (.get (cStr (Field.unread.key userId)))
  (store, replyCount reply)

def clearUnread (userId : Int32) : Store × Bool :=
  succeeds link store (.set (cStr (Field.unread.key userId)) [48])

def deleteKey (key : Bytes) : Store × Bool :=
  deletes link store key

def replyPositive : Option Reply → Bool
  | some (.integer n) => 0 < n
  | _ => false

def existsKey (key : Bytes) : Store × Bool :=
  let (store, reply) := safeCommand link store (.exists (cStr key))
  (store, replyPositive reply)

end

theorem succeeds_answered {link : Link} (hformatted : link.AsFormatted)
    (h : link.outcome = .answered) (store : Store) (command : Command) :
    (succeeds link store command).2
      = decide ((command.execute link.order store).2 ≠ .error) := by
  show ((safeCommand link store command).2.isSome
    && decide ((safeCommand link store command).2 ≠ some .error)) = _
  rw [safeCommand_answered hformatted h, Option.isSome_some, Bool.true_and]
  exact decide_eq_decide.mpr (not_congr Option.some_inj)

end QQChat.CacheManager
