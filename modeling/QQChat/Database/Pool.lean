import Mathlib.Data.List.TakeWhile
import QQChat.Database.Schema
import QQChat.Server.State

/-!
# The database pool over the tables

The members of `DatabasePool` that the handlers call (`database_pool.cpp`), each a
prepared statement on the tables of `init.sql`. `databasePool` puts them together
as the database of the server.

Mirroring notes:
- `executes` is whether everything up to the result of `mysql_stmt_execute` goes
  well, from taking a connection on; the constraints of the tables come on top.
  Whatever fails, the member returns `false`.
- `mysql_stmt_fetch` returns 0 only if every column fits the `buffer_length` it is
  bound with, in bytes; a value that does not is cut off, and the fetch reports
  that (`MYSQL_DATA_TRUNCATED`). It ends a string with a zero byte if there is
  room for it within `buffer_length`. A `NULL` fits.
- `std::string(buf)` takes the bytes up to the first zero byte. Behind a buffer
  that was filled to the last byte it reads on into whatever is there (`behind`).
- The rows of a `SELECT` without `ORDER BY` come in any order.
- Both `sha256` helpers, the pool's and `MessageHandler`'s, are the same text:
  OpenSSL's `SHA256`, a parameter, and then two hexadecimal digits a byte.
- `avatar_url` is fetched and handed out, but no handler looks at it.
-/

namespace QQChat.Database

open Server

/-! ## The hash -/

/-- OpenSSL's `SHA256`. -/
structure Sha256 where
  digest : Bytes → Bytes
  length_digest : ∀ str, (digest str).length = 32

/-- The digit that `%x` prints. -/
def hexDigit (n : UInt8) : UInt8 :=
  if n < 10 then 48 + n else 87 + n

/-- `snprintf(buf, sizeof(buf), "%02x", b)`. -/
def hexByte (b : UInt8) : Bytes :=
  [hexDigit (b / 16), hexDigit (b % 16)]

/-- `sha256`, either of the two. -/
def sha256 (hash : Sha256) (str : Bytes) : Bytes :=
  (hash.digest str).flatMap hexByte

theorem toNat_hexDigit {n : UInt8} (h : n.toNat < 16) :
    (hexDigit n).toNat = if n.toNat < 10 then 48 + n.toNat else 87 + n.toNat := by
  unfold hexDigit
  have h10 : n < 10 ↔ n.toNat < 10 := UInt8.lt_iff_toNat_lt
  split
  next hlt =>
    rw [if_pos (h10.mp hlt), UInt8.toNat_add]
    exact Nat.mod_eq_of_lt (by show 48 + n.toNat < 256; omega)
  next hge =>
    rw [if_neg (mt h10.mpr hge), UInt8.toNat_add]
    exact Nat.mod_eq_of_lt (by show 87 + n.toNat < 256; omega)

theorem hexDigit_injective {m n : UInt8} (hm : m.toNat < 16) (hn : n.toNat < 16)
    (h : hexDigit m = hexDigit n) : m = n := by
  have hnat := congrArg UInt8.toNat h
  rw [toNat_hexDigit hm, toNat_hexDigit hn] at hnat
  refine UInt8.toNat_inj.mp ?_
  split at hnat <;> split at hnat <;> omega

theorem hexDigit_ne_zero {n : UInt8} (h : n.toNat < 16) : hexDigit n ≠ 0 := by
  intro hzero
  have hnat := congrArg UInt8.toNat hzero
  rw [toNat_hexDigit h, UInt8.toNat_zero] at hnat
  split at hnat <;> omega

/-- The two halves of a byte. -/
theorem toNat_halves (b : UInt8) : (b / 16).toNat = b.toNat / 16 ∧ (b % 16).toNat = b.toNat % 16 :=
  ⟨UInt8.toNat_div .., UInt8.toNat_mod ..⟩

theorem halves_lt (b : UInt8) : (b / 16).toNat < 16 ∧ (b % 16).toNat < 16 := by
  have hb : b.toNat < 256 := b.toNat_lt
  rw [(toNat_halves b).1, (toNat_halves b).2]
  omega

theorem hexByte_injective : Function.Injective hexByte := by
  intro a b h
  obtain ⟨hdiv, hmod⟩ : hexDigit (a / 16) = hexDigit (b / 16)
      ∧ hexDigit (a % 16) = hexDigit (b % 16) := by simpa [hexByte] using h
  have hdiv' := congrArg UInt8.toNat (hexDigit_injective (halves_lt a).1 (halves_lt b).1 hdiv)
  have hmod' := congrArg UInt8.toNat (hexDigit_injective (halves_lt a).2 (halves_lt b).2 hmod)
  rw [(toNat_halves a).1, (toNat_halves b).1] at hdiv'
  rw [(toNat_halves a).2, (toNat_halves b).2] at hmod'
  refine UInt8.toNat_inj.mp ?_
  omega

theorem flatMap_hexByte_injective : Function.Injective fun bytes : Bytes => bytes.flatMap hexByte
  | [], [], _ => rfl
  | [], b :: bs, h => by simp [hexByte] at h
  | a :: as, [], h => by simp [hexByte] at h
  | a :: as, b :: bs, h => by
    dsimp only at h
    rw [List.flatMap_cons, List.flatMap_cons] at h
    obtain ⟨hhead, htail⟩ := List.append_inj h rfl
    rw [hexByte_injective hhead, flatMap_hexByte_injective htail]

section

variable (hash : Sha256)

theorem length_sha256 (str : Bytes) : (sha256 hash str).length = 64 := by
  unfold sha256
  simp [List.length_flatMap, hexByte, hash.length_digest]

theorem zero_notMem_sha256 (str : Bytes) : 0 ∉ sha256 hash str := by
  intro hzero
  obtain ⟨b, _, hb⟩ := List.mem_flatMap.mp hzero
  rcases List.mem_cons.mp hb with hb | hb
  · exact hexDigit_ne_zero (halves_lt b).1 hb.symm
  · exact hexDigit_ne_zero (halves_lt b).2 (List.mem_singleton.mp hb).symm

theorem sha256_inj {str str' : Bytes} :
    sha256 hash str = sha256 hash str' ↔ hash.digest str = hash.digest str' :=
  flatMap_hexByte_injective.eq_iff

end

/-! ## MySQL -/

/-- The statements, with their parameters. -/
inductive Statement where
  | selectCredentials (username : Bytes)
  | insertUser (username passwordHash securityQuestion securityAnswer : Bytes)
  | countUsername (username : Bytes)
  | selectSecurityQuestion (username : Bytes)
  | updatePassword (passwordHash username : Bytes)
  | selectUser (userId : Int32)
  | selectFriends (userId : Int32)
  | insertMessage (fromId toId : Int32) (content : Bytes)
  | insertFriend (userId friendId : Int32)
  deriving DecidableEq, Repr

/-- What one callback of the server meets: which statements are executed, the
numbers `AUTO_INCREMENT` would give, the memory behind a full buffer, and the
order of the rows of a join. -/
structure MySQL where
  executes : Statement → Bool
  userId : AutoIncrement
  msgId : Int64
  behind : Bytes
  order : List (FriendRow × UserRow) → List (FriendRow × UserRow)
  order_perm : ∀ rows, (order rows).Perm rows

/-- The column is fetched whole. -/
def fits (bufferLength : Nat) (value : Bytes) : Bool :=
  value.length ≤ bufferLength

/-- The string in a buffer after a fetch. -/
def cString (bufferLength : Nat) (value behind : Bytes) : Bytes :=
  (if value.length < bufferLength then value else value ++ behind).takeWhile (· ≠ 0)

/-- There is room for the zero byte that ends the string, and no other in it. -/
def FitsBuffer (bufferLength : Nat) (value : Bytes) : Prop :=
  value.length < bufferLength ∧ 0 ∉ value

instance (bufferLength : Nat) (value : Bytes) : Decidable (FitsBuffer bufferLength value) :=
  inferInstanceAs (Decidable (_ ∧ _))

theorem FitsBuffer.fits {bufferLength : Nat} {value : Bytes} (h : FitsBuffer bufferLength value) :
    fits bufferLength value = true :=
  decide_eq_true (Nat.le_of_lt h.1)

theorem cString_eq {bufferLength : Nat} {value : Bytes} (hlength : value.length < bufferLength)
    (hzero : 0 ∉ value) (behind : Bytes) : cString bufferLength value behind = value := by
  unfold cString
  rw [if_pos hlength]
  refine List.takeWhile_eq_self_iff.mpr fun b hb => decide_eq_true fun heq => ?_
  rw [heq] at hb
  exact hzero hb

theorem zero_notMem_cString (bufferLength : Nat) (value behind : Bytes) :
    0 ∉ cString bufferLength value behind := fun hmem =>
  absurd (List.mem_takeWhile_imp hmem) (by decide)

/-- Memory that is not zero betrays every other value: a full buffer is read on into it. -/
theorem fitsBuffer_of_cString {bufferLength : Nat} {value rest : Bytes}
    (hfits : fits bufferLength value = true)
    (hback : cString bufferLength value (1 :: rest) = value) : FitsBuffer bufferLength value := by
  have hzero : 0 ∉ value := hback ▸ zero_notMem_cString bufferLength value (1 :: rest)
  refine ⟨Nat.lt_of_le_of_ne (of_decide_eq_true hfits) fun hfull => ?_, hzero⟩
  unfold cString at hback
  rw [if_neg (by omega), List.takeWhile_append_of_pos] at hback
  · exact absurd hback (by simp)
  · exact fun b hb => decide_eq_true fun heq => hzero (heq ▸ hb)

/-- A value comes back whole, whatever is behind the buffer, exactly if it fits. -/
theorem fitsBuffer_iff {bufferLength : Nat} {value : Bytes} :
    (fits bufferLength value = true ∧ ∀ behind, cString bufferLength value behind = value)
      ↔ FitsBuffer bufferLength value := by
  constructor
  · intro ⟨hfits, hback⟩
    exact fitsBuffer_of_cString hfits (hback [1])
  · intro h
    exact ⟨h.fits, cString_eq h.1 h.2⟩

theorem fitsBuffer_sha256 (hash : Sha256) (str : Bytes) : FitsBuffer 256 (sha256 hash str) :=
  ⟨by rw [length_sha256]; omega, zero_notMem_sha256 hash str⟩

/-- A hash comes back as it was written. -/
theorem cString_sha256 (hash : Sha256) (str behind : Bytes) :
    cString 256 (sha256 hash str) behind = sha256 hash str :=
  (fitsBuffer_iff.mpr (fitsBuffer_sha256 hash str)).2 behind

/-! ## The members -/

section

variable (collation : Collation) (hash : Sha256) (mysql : MySQL) (t : Tables)

def verifyUser (username password : Bytes) : Option User :=
  if mysql.executes (.selectCredentials username) then
    match t.userNamed collation username with
    | none => none
    | some row =>
      if fits 64 row.username ∧ fits 256 row.passwordHash then
        let storedHash := cString 256 row.passwordHash mysql.behind
        let inputHash := sha256 hash password
        if storedHash = inputHash then
          some { userId := row.userId, username := cString 64 row.username mysql.behind }
        else none
      else none
  else none

def registerUser (username passwordHash securityQuestion securityAnswerHash : Bytes) :
    Option (Tables × Int32) :=
  if mysql.executes
      (.insertUser username passwordHash securityQuestion securityAnswerHash) then
    (t.insertUser collation {
      userId := mysql.userId
      username
      passwordHash
      avatarUrl := none
      securityQuestion
      securityAnswer := securityAnswerHash }).map fun t' => (t', mysql.userId.val)
  else none

def usernameExists (username : Bytes) : Bool :=
  if mysql.executes (.countUsername username) then
    (t.users.filter fun row => collation.eq row.username username).length > 0
  else false

def getSecurityQuestion (username : Bytes) : Option (Bytes × Bytes) :=
  if mysql.executes (.selectSecurityQuestion username) then
    match t.userNamed collation username with
    | none => none
    | some row =>
      if fits 256 row.securityQuestion ∧ fits 256 row.securityAnswer then
        some (cString 256 row.securityQuestion mysql.behind,
          cString 256 row.securityAnswer mysql.behind)
      else none
  else none

def resetPassword (username newPasswordHash : Bytes) : Option Tables :=
  if mysql.executes (.updatePassword newPasswordHash username) then
    t.updatePassword collation newPasswordHash username
  else none

/-- The columns of a row of `users` that are shown to others are fetched whole. -/
def fetchesUser (row : UserRow) : Bool :=
  fits 64 row.username && row.avatarUrl.all (fits 256)

def getUserById (userId : Int32) : Option User :=
  if mysql.executes (.selectUser userId) then
    match t.userWithId userId with
    | none => none
    | some row =>
      if fetchesUser row then
        some { userId := row.userId, username := cString 64 row.username mysql.behind }
      else none
  else none

/-- `friends f JOIN users u ON f.friend_id = u.user_id`, for the rows of one user with
`status = 1`. -/
def joinFriends (userId : Int32) : List (FriendRow × UserRow) :=
  (t.friends.filter fun row => row.userId = userId ∧ row.status = 1).filterMap fun row =>
    (t.userWithId row.friendId).map fun friend => (row, friend)

/-- The loop ends at the first row that is not fetched whole. -/
def getFriends (userId : Int32) : Option (List Friend) :=
  if mysql.executes (.selectFriends userId) then
    some (((mysql.order (joinFriends t userId)).takeWhile fun pair => fetchesUser pair.2).map
      fun pair =>
        { friendId := pair.1.friendId, friendName := cString 64 pair.2.username mysql.behind })
  else none

def sendMessage (fromId toId : Int32) (content : Bytes) : Option (Tables × Int32) :=
  if mysql.executes (.insertMessage fromId toId content) then
    (t.insertMessage collation { msgId := mysql.msgId, fromId, toId, content }).map
      fun t' => (t', mysql.msgId.toInt32)
  else none

def addFriend (userId friendId : Int32) : Option Tables :=
  if mysql.executes (.insertFriend userId friendId) then
    t.insertFriend { userId, friendId, status := 1 }
  else none

end

section

variable {collation : Collation} {hash : Sha256} {mysql : MySQL} {t : Tables}

/-- Whoever is let in has the row of this name, with the hash of this password, and is
shown as in the row. -/
theorem verifyUser_eq_some {username password : Bytes} {user : User}
    (h : verifyUser collation hash mysql t username password = some user) :
    ∃ row, t.userNamed collation username = some row ∧ fits 64 row.username = true
      ∧ fits 256 row.passwordHash = true
      ∧ cString 256 row.passwordHash mysql.behind = sha256 hash password
      ∧ user = { userId := row.userId, username := cString 64 row.username mysql.behind } := by
  unfold verifyUser at h
  obtain ⟨_, h⟩ := Option.ite_none_right_eq_some.mp h
  cases hrow : t.userNamed collation username with
  | none =>
    rw [hrow] at h
    cases h
  | some row =>
    rw [hrow] at h
    obtain ⟨⟨hname, hhash⟩, h⟩ := Option.ite_none_right_eq_some.mp h
    obtain ⟨hstored, h⟩ := Option.ite_none_right_eq_some.mp h
    exact ⟨row, rfl, hname, hhash, hstored, (Option.some_inj.mp h).symm⟩

/-- Whoever is verified has a row. -/
theorem row_of_verifyUser {username password : Bytes} {user : User}
    (h : verifyUser collation hash mysql t username password = some user) :
    ∃ row ∈ t.users, row.userId.val = user.userId := by
  obtain ⟨row, hrow, _, _, _, rfl⟩ := verifyUser_eq_some h
  exact ⟨row, List.mem_of_find?_eq_some hrow, rfl⟩

end

/-! ## The server's database -/

/-- `DatabasePool`, as the handlers see it. -/
def databasePool (collation : Collation) (hash : Sha256) (mysql : MySQL) :
    DatabasePool Tables where
  verifyUser := verifyUser collation hash mysql
  getUserById := getUserById mysql
  addFriend := addFriend mysql
  getFriends := getFriends mysql
  sendMessage := sendMessage collation mysql
  registerUser := registerUser collation mysql
  usernameExists := usernameExists collation mysql
  getSecurityQuestion := getSecurityQuestion collation mysql
  resetPassword := resetPassword collation mysql

/-- What a callback finds outside the process, with the tables in MySQL. -/
def world (collation : Collation) (hash : Sha256) (mysql : MySQL) (redis : CacheCommand → Bool)
    (now : Int64) : World Tables where
  db := databasePool collation hash mysql
  redis
  now
  sha256 := sha256 hash

end QQChat.Database
