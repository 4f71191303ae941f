import QQChat.Wire.Bytes

/-!
# The tables of `init.sql`

`users`, `friends` and `messages`, with the constraints their definitions
declare: what an `INSERT` or an `UPDATE` does if MySQL executes it, and that it is
refused where it would break a constraint.

Mirroring notes:
- A table is the list of its rows in the order they were inserted. Columns that no
  statement of the handlers reads are left out (`created_at`, `updated_at`,
  `friends.id`; `messages.timestamp` is in `History`).
- `username` is compared by the column's collation, `utf8mb4_unicode_ci`, and the
  length of a `VARCHAR` counts characters of `utf8mb4`. Both are parameters
  (`Collation`): all that is used of the comparison is that it is an equivalence.
- A value that is too long for its column is refused, as in MySQL's strict mode.
- `friends` has an index on `(user_id, friend_id)`, not a unique one. Its foreign
  keys, and those of `messages`, name rows of `users`, which nothing deletes.
- `AUTO_INCREMENT` numbers start at 1.
-/

namespace QQChat.Database

/-- A character set with its comparison. -/
structure Collation where
  /-- The number of characters; `none` is a byte string that is not text. -/
  length : Bytes → Option Nat
  eq : Bytes → Bytes → Bool
  refl : ∀ a, eq a a = true
  symm : ∀ {a b}, eq a b = true → eq b a = true
  trans : ∀ {a b c}, eq a b = true → eq b c = true → eq a c = true

/-- A `VARCHAR(n)` column takes the value. -/
def Collation.varchar (collation : Collation) (n : Nat) (value : Bytes) : Bool :=
  match collation.length value with
  | some length => length ≤ n
  | none => false

/-- A `TEXT` column takes the value: its length is counted in bytes. -/
def Collation.text (collation : Collation) (value : Bytes) : Bool :=
  (collation.length value).isSome && value.length ≤ 65535

/-! ## Rows -/

/-- The value of an `INT AUTO_INCREMENT` column. -/
abbrev AutoIncrement := { id : Int32 // id ≠ 0 }

structure UserRow where
  userId : AutoIncrement
  username : Bytes
  passwordHash : Bytes
  avatarUrl : Option Bytes
  securityQuestion : Bytes
  securityAnswer : Bytes
  deriving DecidableEq, Repr

structure FriendRow where
  userId : Int32
  friendId : Int32
  status : Int32
  deriving DecidableEq, Repr

structure MessageRow where
  msgId : Int64
  fromId : Int32
  toId : Int32
  content : Bytes
  deriving DecidableEq, Repr

structure Tables where
  users : List UserRow := []
  friends : List FriendRow := []
  messages : List MessageRow := []
  deriving DecidableEq, Repr

namespace Tables

/-- The referenced row of a foreign key to `users(user_id)`. -/
def hasUser (t : Tables) (userId : Int32) : Bool :=
  t.users.any fun row => row.userId.val = userId

/-- The row with this name, as the column compares. -/
def userNamed (collation : Collation) (t : Tables) (username : Bytes) : Option UserRow :=
  t.users.find? fun row => collation.eq row.username username

def userWithId (t : Tables) (userId : Int32) : Option UserRow :=
  t.users.find? fun row => row.userId.val = userId

/-! ## Inserts and updates -/

/-- The four columns, `PRIMARY KEY` and `UNIQUE`. -/
def AdmitsUser (collation : Collation) (t : Tables) (row : UserRow) : Prop :=
  collation.varchar 64 row.username = true ∧ collation.varchar 256 row.passwordHash = true
    ∧ collation.varchar 256 row.securityQuestion = true
    ∧ collation.varchar 256 row.securityAnswer = true
    ∧ ∀ other ∈ t.users,
      other.userId ≠ row.userId ∧ collation.eq other.username row.username = false

instance (collation : Collation) (t : Tables) (row : UserRow) :
    Decidable (t.AdmitsUser collation row) :=
  inferInstanceAs (Decidable (_ ∧ _))

def insertUser (collation : Collation) (t : Tables) (row : UserRow) : Option Tables :=
  if t.AdmitsUser collation row then some { t with users := t.users ++ [row] } else none

def insertFriend (t : Tables) (row : FriendRow) : Option Tables :=
  if t.hasUser row.userId ∧ t.hasUser row.friendId then
    some { t with friends := t.friends ++ [row] }
  else none

def insertMessage (collation : Collation) (t : Tables) (row : MessageRow) : Option Tables :=
  if t.hasUser row.fromId ∧ t.hasUser row.toId ∧ collation.text row.content
      ∧ ∀ other ∈ t.messages, other.msgId ≠ row.msgId then
    some { t with messages := t.messages ++ [row] }
  else none

/-- Every row with this name gets the new hash; that there is none is no error. -/
def updatePassword (collation : Collation) (t : Tables) (passwordHash username : Bytes) :
    Option Tables :=
  if collation.varchar 256 passwordHash then
    some { t with
      users := t.users.map fun row =>
        if collation.eq row.username username then { row with passwordHash } else row }
  else none

/-! ## What they change -/

section

variable {collation : Collation} {t t' : Tables}

theorem insertUser_eq_some {row : UserRow} : t.insertUser collation row = some t' ↔
    t.AdmitsUser collation row ∧ t' = { t with users := t.users ++ [row] } := by
  simp only [insertUser, Option.ite_none_right_eq_some, Option.some_inj, eq_comm (b := t')]

theorem insertFriend_eq_some {row : FriendRow} : t.insertFriend row = some t' ↔
    (t.hasUser row.userId = true ∧ t.hasUser row.friendId = true)
      ∧ t' = { t with friends := t.friends ++ [row] } := by
  simp only [insertFriend, Option.ite_none_right_eq_some, Option.some_inj, eq_comm (b := t')]

theorem insertMessage_eq_some {row : MessageRow} (h : t.insertMessage collation row = some t') :
    t' = { t with messages := t.messages ++ [row] } := by
  obtain ⟨_, heq⟩ := Option.ite_none_right_eq_some.mp h
  exact (Option.some_inj.mp heq).symm

theorem updatePassword_eq_some {passwordHash username : Bytes}
    (h : t.updatePassword collation passwordHash username = some t') :
    t' = { t with
      users := t.users.map fun row =>
        if collation.eq row.username username then { row with passwordHash } else row } := by
  obtain ⟨_, heq⟩ := Option.ite_none_right_eq_some.mp h
  exact (Option.some_inj.mp heq).symm

theorem hasUser_iff {userId : Int32} :
    t.hasUser userId = true ↔ ∃ row ∈ t.users, row.userId.val = userId := by
  simp [hasUser]

end

end Tables

end QQChat.Database
