import QQChat.Database.Dispatch

/-!
# The rows that `get_friends` fetches

`DatabasePool::get_friends` binds two buffers on its stack and fetches every row of the
join into them. `Database.getFriends` is this member as the handlers see it, the ids
and the names; here are the buffers, and all four members of the `Friend`s.

Mirroring notes:
- A `Buffer` is the memory from its start on: the bytes that were bound, the one after
  them, and whatever lies behind. What it holds before the first row is arbitrary.
- `mysql_stmt_fetch` copies a value, and a zero byte if the value is shorter than what
  was bound; for a `NULL` it writes nothing. `is_null` is not bound.
- `f.friend_name = username_buf` takes the bytes up to the first zero byte.
- A row that is not fetched whole ends the loop, and the function returns `true`.

So a row's strings come back as they are exactly if they leave room for the zero byte,
and a `NULL` comes back as the empty string exactly if the last avatar before it was
one (`complete_iff`).
-/

namespace QQChat.Database

/-- A `char` array that is bound with length `bound` and has one byte more. -/
structure Buffer (bound : Nat) where
  memory : Bytes
  room : bound < memory.length

namespace Buffer

variable {bound : Nat}

/-- The buffer after a value that fits has been fetched into it. -/
def put (buffer : Buffer bound) (value : Bytes) : Buffer bound where
  memory :=
    if value.length < bound then value ++ 0 :: buffer.memory.drop (value.length + 1)
    else value ++ buffer.memory.drop value.length
  room := by
    have hroom := buffer.room
    split <;> simp only [List.length_append, List.length_cons, List.length_drop] <;> omega

/-- `std::string(buf)`. -/
def str (buffer : Buffer bound) : Bytes :=
  buffer.memory.takeWhile (· ≠ 0)

/-- The byte after those that were bound, and what lies behind. -/
def behind (buffer : Buffer bound) : Bytes :=
  buffer.memory.drop bound

theorem takeWhile_append_zero (value rest : Bytes) :
    (value ++ 0 :: rest).takeWhile (· ≠ 0) = value.takeWhile (· ≠ 0) := by
  have hstop : (0 :: rest).takeWhile (· ≠ (0 : UInt8)) = [] := rfl
  rw [List.takeWhile_append, hstop, List.append_nil]
  split
  next hall => exact (List.IsPrefix.eq_of_length (List.takeWhile_prefix _) hall).symm
  next => rfl

theorem str_put (buffer : Buffer bound) {value : Bytes} (h : fits bound value = true) :
    (buffer.put value).str = cString bound value buffer.behind := by
  have hle : value.length ≤ bound := of_decide_eq_true h
  unfold str put cString
  by_cases hlt : value.length < bound
  · simp only [if_pos hlt]
    exact takeWhile_append_zero value _
  · simp only [if_neg hlt]
    rw [show value.length = bound by omega]
    rfl

theorem behind_put (buffer : Buffer bound) {value : Bytes} (h : fits bound value = true) :
    (buffer.put value).behind = buffer.behind := by
  have hle : value.length ≤ bound := of_decide_eq_true h
  unfold behind put
  by_cases hlt : value.length < bound
  · simp only [if_pos hlt]
    rw [List.drop_append, List.drop_eq_nil_of_le hle, List.nil_append,
      show bound - value.length = (bound - value.length - 1) + 1 by omega, List.drop_succ_cons,
      List.drop_drop]
    congr 1
    omega
  · simp only [if_neg hlt]
    rw [List.drop_append, List.drop_eq_nil_of_le hle, List.nil_append, List.drop_drop]
    congr 1
    omega

/-- A value that leaves room for the zero byte comes back. -/
theorem str_put_of_fitsBuffer (buffer : Buffer bound) {value : Bytes}
    (h : FitsBuffer bound value) : (buffer.put value).str = value := by
  rw [buffer.str_put h.fits]
  exact cString_eq h.1 h.2 buffer.behind

/-- With a byte behind that does not end the string, no other does. -/
theorem fitsBuffer_of_str_put {buffer : Buffer bound} {value rest : Bytes}
    (hbehind : buffer.behind = 1 :: rest) (hfits : fits bound value = true)
    (hback : (buffer.put value).str = value) : FitsBuffer bound value := by
  rw [buffer.str_put hfits, hbehind] at hback
  exact fitsBuffer_of_cString hfits hback

end Buffer

/-! ## The loop -/

/-- `struct Friend`. -/
structure FriendEntry where
  userId : Int32
  friendId : Int32
  friendName : Bytes
  avatarUrl : Bytes
  deriving DecidableEq, Repr

/-- `username_buf` and `avatar_url_buf`. -/
structure FriendBuffers where
  username : Buffer 64
  avatarUrl : Buffer 256

namespace FriendBuffers

/-- A row that fits is fetched. -/
def fetch (buffers : FriendBuffers) (user : UserRow) : FriendBuffers where
  username := buffers.username.put user.username
  avatarUrl :=
    match user.avatarUrl with
    | none => buffers.avatarUrl
    | some url => buffers.avatarUrl.put url

/-- `while (mysql_stmt_fetch(stmt) == 0)`, over the rows of the result. -/
def fetchLoop (userId : Int32) :
    FriendBuffers → List (FriendRow × UserRow) → List FriendEntry
  | _, [] => []
  | buffers, pair :: rows =>
    if fetchesUser pair.2 then
      let buffers := buffers.fetch pair.2
      { userId
        friendId := pair.1.friendId
        friendName := buffers.username.str
        avatarUrl := buffers.avatarUrl.str } :: fetchLoop userId buffers rows
    else []

/-- `get_friends`, with the vector that it appends to. -/
def getFriends (buffers : FriendBuffers) (mysql : MySQL) (t : Tables) (userId : Int32)
    (friends : List FriendEntry) : Option (List FriendEntry) :=
  if mysql.executes (.selectFriends userId) then
    some (friends ++ fetchLoop userId buffers (mysql.order (joinFriends t userId)))
  else none

end FriendBuffers

/-- What the handlers see of an entry. -/
def FriendEntry.shown (entry : FriendEntry) : Server.Friend :=
  { friendId := entry.friendId, friendName := entry.friendName }

/-- The names and ids are those of `Database.getFriends`. -/
theorem fetchLoop_shown (userId : Int32) (mysql : MySQL) (rows : List (FriendRow × UserRow))
    (buffers : FriendBuffers) (h : mysql.behind = buffers.username.behind) :
    (buffers.fetchLoop userId rows).map FriendEntry.shown
      = (rows.takeWhile fun pair => fetchesUser pair.2).map fun pair =>
        { friendId := pair.1.friendId, friendName := cString 64 pair.2.username mysql.behind } := by
  induction rows generalizing buffers with
  | nil => rfl
  | cons pair rows ih =>
    rw [FriendBuffers.fetchLoop]
    cases hfetches : fetchesUser pair.2 with
    | false =>
      simp only [List.takeWhile_cons, hfetches]
      rfl
    | true =>
      have hfits : fits 64 pair.2.username = true := (Bool.and_eq_true_iff.mp hfetches).1
      have hrest := ih (buffers.fetch pair.2) (h.trans (buffers.username.behind_put hfits).symm)
      simp only [List.takeWhile_cons, hfetches, if_true, List.map_cons]
      rw [hrest, h, ← buffers.username.str_put hfits]
      rfl

theorem getFriends_shown {buffers : FriendBuffers} {mysql : MySQL} (t : Tables) (userId : Int32)
    (h : mysql.behind = buffers.username.behind) :
    getFriends mysql t userId
      = (buffers.getFriends mysql t userId []).map (List.map FriendEntry.shown) := by
  unfold getFriends FriendBuffers.getFriends
  split
  · rw [Option.map_some, List.nil_append, fetchLoop_shown userId mysql _ buffers h]
  · rfl

/-! ## When a row is read back -/

/-- The last avatar, other than `NULL`, among the rows. -/
def lastAvatar (rows : List (FriendRow × UserRow)) : Option Bytes :=
  (rows.filterMap fun pair => pair.2.avatarUrl).getLast?

theorem lastAvatar_snoc_none {rows : List (FriendRow × UserRow)} {pair : FriendRow × UserRow}
    (h : pair.2.avatarUrl = none) : lastAvatar (rows ++ [pair]) = lastAvatar rows := by
  unfold lastAvatar
  simp only [List.filterMap_append, List.filterMap_cons, h, List.filterMap_nil, List.append_nil]

theorem lastAvatar_snoc_some {rows : List (FriendRow × UserRow)} {pair : FriendRow × UserRow}
    {url : Bytes} (h : pair.2.avatarUrl = some url) :
    lastAvatar (rows ++ [pair]) = some url := by
  unfold lastAvatar
  simp only [List.filterMap_append, List.filterMap_cons, h, List.filterMap_nil,
    List.getLast?_concat]

/-- The row after these leaves room for the zero bytes, and if its avatar is `NULL`,
the buffer is known to hold the empty string. -/
def ReadsBack (before : List (FriendRow × UserRow)) (pair : FriendRow × UserRow) : Prop :=
  FitsBuffer 64 pair.2.username
    ∧ match pair.2.avatarUrl with
      | none => lastAvatar before = some []
      | some url => FitsBuffer 256 url

/-- A friend as the tables have it. -/
def entryOf (userId : Int32) (pair : FriendRow × UserRow) : FriendEntry :=
  { userId
    friendId := pair.1.friendId
    friendName := pair.2.username
    avatarUrl := pair.2.avatarUrl.getD [] }

/-- The avatar in the buffer is the last one that was fetched. -/
def Remembers (buffers : FriendBuffers) (before : List (FriendRow × UserRow)) : Prop :=
  ∀ url, lastAvatar before = some url → buffers.avatarUrl.str = url

/-- Memory in which nothing ends a string, and no avatar so far was fetched by chance. -/
structure Dirty (buffers : FriendBuffers) (before : List (FriendRow × UserRow)) : Prop where
  username : ∃ rest, buffers.username.behind = 1 :: rest
  avatarUrl : ∃ rest, buffers.avatarUrl.behind = 1 :: rest
  unset : lastAvatar before = none → buffers.avatarUrl.str ≠ []

section

variable {buffers : FriendBuffers} {before : List (FriendRow × UserRow)}
  {pair : FriendRow × UserRow}

theorem FriendBuffers.fetch_avatarUrl_none (h : pair.2.avatarUrl = none) :
    (buffers.fetch pair.2).avatarUrl = buffers.avatarUrl := by
  unfold FriendBuffers.fetch
  rw [h]

theorem FriendBuffers.fetch_avatarUrl_some {url : Bytes} (h : pair.2.avatarUrl = some url) :
    (buffers.fetch pair.2).avatarUrl = buffers.avatarUrl.put url := by
  unfold FriendBuffers.fetch
  rw [h]

theorem fits_avatar {url : Bytes} (h : fetchesUser pair.2 = true)
    (havatar : pair.2.avatarUrl = some url) : fits 256 url = true := by
  have hall := (Bool.and_eq_true_iff.mp h).2
  rw [havatar] at hall
  exact hall

/-- The loop pushes the entry of a row that is read back, and remembers its avatar. -/
theorem ReadsBack.fetched (h : ReadsBack before pair) (hbuffers : Remembers buffers before)
    (userId : Int32) (rows : List (FriendRow × UserRow)) :
    buffers.fetchLoop userId (pair :: rows)
        = entryOf userId pair :: (buffers.fetch pair.2).fetchLoop userId rows
      ∧ Remembers (buffers.fetch pair.2) (before ++ [pair]) := by
  obtain ⟨husername, havatar⟩ := h
  have hfits := husername.fits
  have hname : (buffers.fetch pair.2).username.str = pair.2.username :=
    buffers.username.str_put_of_fitsBuffer husername
  -- The avatar that the buffer holds after the fetch is the row's own.
  have hstr : fetchesUser pair.2 = true
      ∧ (buffers.fetch pair.2).avatarUrl.str = pair.2.avatarUrl.getD []
      ∧ Remembers (buffers.fetch pair.2) (before ++ [pair]) := by
    cases hurl : pair.2.avatarUrl with
    | none =>
      rw [hurl] at havatar
      have hempty := hbuffers [] havatar
      unfold Remembers
      rw [FriendBuffers.fetch_avatarUrl_none hurl, lastAvatar_snoc_none hurl]
      refine ⟨?_, hempty, hbuffers⟩
      rw [fetchesUser, hfits, hurl]
      rfl
    | some url =>
      rw [hurl] at havatar
      have hback : (buffers.fetch pair.2).avatarUrl.str = url := by
        rw [FriendBuffers.fetch_avatarUrl_some hurl]
        exact buffers.avatarUrl.str_put_of_fitsBuffer havatar
      refine ⟨?_, hback, fun url' hlast => ?_⟩
      · rw [fetchesUser, hfits, hurl]
        exact havatar.fits
      · rw [lastAvatar_snoc_some hurl] at hlast
        rw [hback, Option.some.inj hlast]
  refine ⟨?_, hstr.2.2⟩
  rw [FriendBuffers.fetchLoop, if_pos hstr.1]
  show (_ : FriendEntry) :: _ = _
  rw [hname, hstr.2.1]
  rfl

/-- In dirty memory, only such a row gets its own entry. -/
theorem Dirty.readsBack (h : Dirty buffers before) (hbuffers : Remembers buffers before)
    {userId : Int32} {rows : List (FriendRow × UserRow)} {entries : List FriendEntry}
    (hloop : buffers.fetchLoop userId (pair :: rows) = entryOf userId pair :: entries) :
    ReadsBack before pair ∧ Dirty (buffers.fetch pair.2) (before ++ [pair]) := by
  rw [FriendBuffers.fetchLoop] at hloop
  split at hloop
  next hfetches =>
    obtain ⟨hentry, _⟩ := List.cons.inj hloop
    have hfits : fits 64 pair.2.username = true := (Bool.and_eq_true_iff.mp hfetches).1
    have hname : (buffers.fetch pair.2).username.str = pair.2.username :=
      congrArg FriendEntry.friendName hentry
    have hstr : (buffers.fetch pair.2).avatarUrl.str = pair.2.avatarUrl.getD [] :=
      congrArg FriendEntry.avatarUrl hentry
    obtain ⟨rest, hbehind⟩ := h.username
    obtain ⟨restUrl, hbehindUrl⟩ := h.avatarUrl
    have husername : ∃ rest, (buffers.fetch pair.2).username.behind = 1 :: rest :=
      ⟨rest, (buffers.username.behind_put hfits).trans hbehind⟩
    have hroom := Buffer.fitsBuffer_of_str_put hbehind hfits hname
    unfold ReadsBack
    cases hurl : pair.2.avatarUrl with
    | none =>
      rw [FriendBuffers.fetch_avatarUrl_none hurl, hurl] at hstr
      refine ⟨⟨hroom, ?_⟩, husername, ?_, ?_⟩
      · show lastAvatar before = some []
        cases hlast : lastAvatar before with
        | none => exact absurd hstr (h.unset hlast)
        | some url => rw [← hbuffers url hlast, hstr]; rfl
      · rw [FriendBuffers.fetch_avatarUrl_none hurl]
        exact h.avatarUrl
      · rw [FriendBuffers.fetch_avatarUrl_none hurl, lastAvatar_snoc_none hurl]
        exact h.unset
    | some url =>
      have hfitsUrl := fits_avatar hfetches hurl
      rw [FriendBuffers.fetch_avatarUrl_some hurl, hurl] at hstr
      have hroomUrl := Buffer.fitsBuffer_of_str_put hbehindUrl hfitsUrl hstr
      refine ⟨⟨hroom, hroomUrl⟩, husername, ?_, ?_⟩
      · rw [FriendBuffers.fetch_avatarUrl_some hurl, buffers.avatarUrl.behind_put hfitsUrl]
        exact h.avatarUrl
      · rw [lastAvatar_snoc_some hurl]
        exact fun hnone => nomatch hnone
  next => cases hloop

end

/-! ## Completeness -/

/-- All the rows, after those before, are read back. -/
def AllReadBack (before rows : List (FriendRow × UserRow)) : Prop :=
  ∀ done pair rest, rows = done ++ pair :: rest → ReadsBack (before ++ done) pair

theorem allReadBack_cons {before rows : List (FriendRow × UserRow)}
    {pair : FriendRow × UserRow} : AllReadBack before (pair :: rows)
      ↔ ReadsBack before pair ∧ AllReadBack (before ++ [pair]) rows := by
  constructor
  · intro h
    refine ⟨?_, fun done pair' rest hrows => ?_⟩
    · have hfirst := h [] pair rows rfl
      rwa [List.append_nil] at hfirst
    · have hlater := h (pair :: done) pair' rest (by rw [hrows]; rfl)
      rwa [List.append_cons] at hlater
  · rintro ⟨hpair, hrest⟩ (_ | ⟨first, done⟩) pair' rest hrows
    · cases hrows
      rwa [List.append_nil]
    · cases hrows
      rw [List.append_cons]
      exact hrest done pair' rest rfl

/-- Rows that are read back come out one for one, whatever the memory held before. -/
theorem AllReadBack.fetchLoop {before rows : List (FriendRow × UserRow)}
    (h : AllReadBack before rows) (userId : Int32) {buffers : FriendBuffers}
    (hbuffers : Remembers buffers before) :
    buffers.fetchLoop userId rows = rows.map (entryOf userId) := by
  induction rows generalizing before buffers with
  | nil => rfl
  | cons pair rows ih =>
    obtain ⟨hpair, hrows⟩ := allReadBack_cons.mp h
    obtain ⟨hloop, hnext⟩ := hpair.fetched hbuffers userId rows
    rw [hloop, ih hrows hnext, List.map_cons]

/-- In dirty memory, no other rows do. -/
theorem Dirty.allReadBack {before rows : List (FriendRow × UserRow)} {userId : Int32}
    {buffers : FriendBuffers} (h : Dirty buffers before) (hbuffers : Remembers buffers before)
    (hloop : buffers.fetchLoop userId rows = rows.map (entryOf userId)) :
    AllReadBack before rows := by
  induction rows generalizing before buffers with
  | nil =>
    intro done pair rest hrows
    exact absurd hrows.symm (List.append_ne_nil_of_right_ne_nil done (List.cons_ne_nil pair rest))
  | cons pair rows ih =>
    obtain ⟨hpair, hdirty⟩ := h.readsBack hbuffers hloop
    obtain ⟨hentry, hnext⟩ := hpair.fetched hbuffers userId rows
    rw [hentry, List.map_cons] at hloop
    exact allReadBack_cons.mpr ⟨hpair, ih hdirty hnext (List.cons.inj hloop).2⟩

/-- Every byte is 1. -/
def dirtyBuffers : FriendBuffers where
  username := { memory := List.replicate 65 1, room := by rw [List.length_replicate]; decide }
  avatarUrl := { memory := List.replicate 257 1, room := by rw [List.length_replicate]; decide }

theorem dirty_dirtyBuffers : Dirty dirtyBuffers [] where
  username := ⟨[], rfl⟩
  avatarUrl := ⟨[], List.drop_replicate⟩
  unset _ := List.cons_ne_nil _ _

theorem remembers_nil (buffers : FriendBuffers) : Remembers buffers [] :=
  fun _ hlast => nomatch hlast

/-- Whenever `get_friends` returns `true`, whatever the memory of its buffers held, what
it has appended are the rows of the join, in the order of the result and none missing,
each with its own members. -/
def Complete (mysql : MySQL) (t : Tables) (userId : Int32) : Prop :=
  ∀ (buffers : FriendBuffers) (friends result : List FriendEntry),
    buffers.getFriends mysql t userId friends = some result →
      result = friends ++ (mysql.order (joinFriends t userId)).map (entryOf userId)

/-- **When the friend list is complete**: exactly if the statement is not executed, or
every row of its result is read back. -/
theorem complete_iff (mysql : MySQL) (t : Tables) (userId : Int32) :
    Complete mysql t userId ↔ (mysql.executes (.selectFriends userId) = true →
      ∀ before pair after, mysql.order (joinFriends t userId) = before ++ pair :: after →
        ReadsBack before pair) := by
  unfold Complete FriendBuffers.getFriends
  constructor
  · intro h hexecutes
    have hdirty := h dirtyBuffers [] _ (if_pos hexecutes)
    exact dirty_dirtyBuffers.allReadBack (remembers_nil _) hdirty
  · intro h buffers friends result hresult
    obtain ⟨hexecutes, hresult⟩ := Option.ite_none_right_eq_some.mp hresult
    have hrows : AllReadBack [] (mysql.order (joinFriends t userId)) := h hexecutes
    rw [← Option.some.inj hresult, hrows.fetchLoop userId (remembers_nil buffers)]

/-- The two friends of `admin` have no avatar. Each gets the 257 bytes that the stack
happened to hold. -/
theorem null_avatar_from_stack :
    (dirtyBuffers.getFriends reachable initSql 1 []).map (List.map fun entry =>
        (entry.friendId, entry.avatarUrl.length)) = some [(2, 257), (3, 257)]
    ∧ ¬ Complete reachable initSql 1 := by
  refine ⟨by decide +kernel, fun h => ?_⟩
  have hresult := congrArg (List.map fun entry => entry.avatarUrl.length)
    (h dirtyBuffers [] _ rfl)
  exact absurd hresult (by decide +kernel)

end QQChat.Database
