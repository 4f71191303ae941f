import Mathlib.Data.List.Forall2
import Mathlib.Data.List.Sort
import QQChat.Database.FriendRows

/-!
# The message history

`DatabasePool::get_messages`: the messages between two users, in either direction, the
last `limit` of them. The statement sorts them downwards by `timestamp`, the loop fetches
them one by one into two buffers on the stack, and the vector is turned round at the end.

Mirroring notes:
- `timestamp` is the column of `messages` that `Schema` leaves out. MySQL compares a
  `DATETIME` as one number (`DateTime.packed`), and converts it to 19 characters.
- Rows with the same timestamp come in any order, and any of them may be the one that the
  limit cuts off (`HistoryQuery.order`).
- `content_buf` is a `char[4096]` bound with 4095, `timestamp_buf` a `char[20]` bound with
  19. `mysql_stmt_fetch` is as in `FriendRows`; the numbers are always fetched, and a
  `msg_id` keeps its low 32 bits.
- The 19 characters of a timestamp fill what is bound of their buffer, so nothing ends them:
  `m.timestamp` runs on into whatever the stack holds behind (`timestamp_str_fetch`). A
  complete history (`Shows`) does not promise the timestamps.
- `LIMIT` takes no negative number.

A `TEXT` may be sixteen times as long as the buffer. Such a message ends the loop, and
with it every message before it in time is missing (`long_message_hides_older`). The
condition for a complete history is `historyComplete_iff`.
-/

namespace QQChat.Database

/-! ## The last rows of an order -/

section

variable {α β : Type} [LE β]

/-- `rows` are the last of `all`, by the key: as many as the limit allows, none that is left
out has a greater key, and they are listed upwards. Which of several rows with the same key
are taken is left open. -/
structure Latest (key : α → β) (limit : Nat) (all rows : List α) : Prop where
  length_eq : rows.length = min limit all.length
  others_le : ∃ others, (rows ++ others).Perm all
    ∧ ∀ row ∈ rows, ∀ other ∈ others, key other ≤ key row
  upwards : rows.Pairwise fun row later => key row ≤ key later

/-- To sort downwards, take a beginning and turn it round. -/
theorem latest_take_reverse {key : α → β} {sorted all : List α} (hperm : sorted.Perm all)
    (hsorted : sorted.Pairwise fun row later => key later ≤ key row) (limit : Nat) :
    Latest key limit all (sorted.take limit).reverse where
  length_eq := by
    rw [List.length_reverse, List.length_take, hperm.length_eq]
  others_le := by
    refine ⟨sorted.drop limit, ?_, fun row hrow other hother => ?_⟩
    · refine List.Perm.trans ?_ hperm
      conv => rhs; rw [← List.take_append_drop limit sorted]
      exact (List.reverse_perm _).append_right _
    · rw [← List.take_append_drop limit sorted] at hsorted
      exact (List.pairwise_append.mp hsorted).2.2 row (List.mem_reverse.mp hrow) other hother
  upwards := List.pairwise_reverse.mpr (hsorted.sublist (List.take_sublist limit sorted))

end

/-! ## The table -/

structure DateTime where
  year : Fin 10000
  month : Fin 13
  day : Fin 32
  hour : Fin 24
  minute : Fin 60
  second : Fin 60
  deriving DecidableEq, Repr

/-- The last `width` decimal digits. -/
def decimal : Nat → Nat → Bytes
  | 0, _ => []
  | width + 1, n => decimal width (n / 10) ++ [48 + UInt8.ofNat (n % 10)]

theorem length_decimal (width n : Nat) : (decimal width n).length = width := by
  induction width generalizing n with
  | zero => rfl
  | succ width ih => rw [decimal, List.length_append, ih, List.length_singleton]

namespace DateTime

def packed (t : DateTime) : Nat :=
  ((((t.year.val * 13 + t.month.val) * 32 + t.day.val) * 24 + t.hour.val) * 60 + t.minute.val) * 60
    + t.second.val

/-- `YYYY-MM-DD hh:mm:ss`. -/
def text (t : DateTime) : Bytes :=
  decimal 4 t.year ++ 45 :: decimal 2 t.month ++ 45 :: decimal 2 t.day
    ++ 32 :: decimal 2 t.hour ++ 58 :: decimal 2 t.minute ++ 58 :: decimal 2 t.second

theorem length_text (t : DateTime) : t.text.length = 19 := by
  unfold text
  simp only [List.length_append, List.length_cons, length_decimal]

end DateTime

/-- A row of `messages`, all its columns. -/
structure StampedRow extends MessageRow where
  timestamp : DateTime
  deriving DecidableEq, Repr

/-- The rows of `messages`, as its definition admits them. -/
structure MessageTable (collation : Collation) where
  rows : List StampedRow
  text : ∀ row ∈ rows, collation.text row.content = true
  primaryKey : rows.Pairwise fun row later => later.msgId ≠ row.msgId

/-- The messages between two users, in either direction. -/
def conversation (rows : List StampedRow) (userId friendId : Int32) : List StampedRow :=
  rows.filter fun row =>
    row.fromId = userId ∧ row.toId = friendId ∨ row.fromId = friendId ∧ row.toId = userId

/-- The table without its timestamps is `messages` of the tables. -/
def MessageTable.Stamps {collation : Collation} (table : MessageTable collation) (t : Tables) :
    Prop :=
  table.rows.map StampedRow.toMessageRow = t.messages

/-- What `send_message` stores is such a table again, whenever it does. -/
theorem sendMessage_stamps {collation : Collation} {table : MessageTable collation}
    {mysql : MySQL} {t t' : Tables} {fromId toId msgId : Int32} {content : Bytes}
    (h : table.Stamps t) (hsend : sendMessage collation mysql t fromId toId content
      = some (t', msgId)) (now : DateTime) :
    ∃ table' : MessageTable collation, table'.Stamps t'
      ∧ table'.rows = table.rows ++ [⟨⟨mysql.msgId, fromId, toId, content⟩, now⟩] := by
  obtain ⟨_, hsend⟩ := Option.ite_none_right_eq_some.mp hsend
  obtain ⟨tables, hinsert, heq⟩ := Option.map_eq_some_iff.mp hsend
  obtain ⟨rfl, _⟩ := Prod.mk.inj heq
  obtain ⟨⟨_, _, htext, hfresh⟩, hmessages⟩ := Option.ite_none_right_eq_some.mp hinsert
  refine ⟨⟨table.rows ++ [⟨⟨mysql.msgId, fromId, toId, content⟩, now⟩], ?_, ?_⟩, ?_, rfl⟩
  · intro row hrow
    rcases List.mem_append.mp hrow with hold | hnew
    · exact table.text row hold
    · rw [List.mem_singleton.mp hnew]
      exact htext
  · refine List.pairwise_append.mpr ⟨table.primaryKey, List.pairwise_singleton .., ?_⟩
    intro row hrow new hnew
    have hmem : row.toMessageRow ∈ t.messages := h ▸ List.mem_map_of_mem hrow
    rw [List.mem_singleton.mp hnew]
    exact (hfresh row.toMessageRow hmem).symm
  · rw [← Option.some.inj hmessages]
    show (table.rows ++ _).map StampedRow.toMessageRow = t.messages ++ _
    rw [List.map_append, h]
    rfl

/-! ## The loop -/

/-- `struct Message`. -/
structure Message where
  msgId : Int32
  fromId : Int32
  toId : Int32
  content : Bytes
  timestamp : Bytes
  deriving DecidableEq, Repr

/-- The parameter of `LIMIT`. -/
abbrev Limit := { limit : Int32 // 0 ≤ limit }

def Limit.toNat (limit : Limit) : Nat :=
  limit.val.toNatClampNeg

/-- What one call meets: whether everything goes well, from taking a connection to the
metadata of the result, and how MySQL sorts. -/
structure HistoryQuery where
  executes : Bool
  order : List StampedRow → List StampedRow
  order_perm : ∀ rows, (order rows).Perm rows
  order_downwards : ∀ rows, (order rows).Pairwise fun row later =>
    later.timestamp.packed ≤ row.timestamp.packed

/-- The rows of the result. -/
def HistoryQuery.select (query : HistoryQuery) (rows : List StampedRow)
    (userId friendId : Int32) (limit : Limit) : List StampedRow :=
  (query.order (conversation rows userId friendId)).take limit.toNat

/-- The columns of the row are fetched whole. -/
def fetchesMessage (row : StampedRow) : Bool :=
  fits 4095 row.content && fits 19 row.timestamp.text

/-- `content_buf` and `timestamp_buf`. -/
structure MessageBuffers where
  content : Buffer 4095
  timestamp : Buffer 19

namespace MessageBuffers

def fetch (buffers : MessageBuffers) (row : StampedRow) : MessageBuffers where
  content := buffers.content.put row.content
  timestamp := buffers.timestamp.put row.timestamp.text

/-- `while (mysql_stmt_fetch(stmt) == 0)`, over the rows of the result. -/
def fetchLoop : MessageBuffers → List StampedRow → List Message
  | _, [] => []
  | buffers, row :: rows =>
    if fetchesMessage row then
      let buffers := buffers.fetch row
      { msgId := row.msgId.toInt32
        fromId := row.fromId
        toId := row.toId
        content := buffers.content.str
        timestamp := buffers.timestamp.str } :: fetchLoop buffers rows
    else []

/-- The whole vector is turned round, with what it held before. -/
def getMessages (buffers : MessageBuffers) (query : HistoryQuery) (rows : List StampedRow)
    (userId friendId : Int32) (messages : List Message) (limit : Limit) : Option (List Message) :=
  if query.executes then
    some (messages ++ fetchLoop buffers (query.select rows userId friendId limit)).reverse
  else none

end MessageBuffers

/-! ## Which histories are complete -/

/-- The message is this row, its content unchanged. Its `timestamp` is left out: it is not
terminated (`timestamp_str_fetch`). -/
def Shows (message : Message) (row : StampedRow) : Prop :=
  message.msgId = row.msgId.toInt32 ∧ message.fromId = row.fromId ∧ message.toId = row.toId
    ∧ message.content = row.content

theorem fits_text (t : DateTime) : fits 19 t.text = true :=
  decide_eq_true (Nat.le_of_eq t.length_text)

/-- `timestamp_buf` is read past its 19 characters, up to the first zero byte of the byte
after them and what lies behind. -/
theorem timestamp_str_fetch (buffers : MessageBuffers) (row : StampedRow) :
    (buffers.fetch row).timestamp.str
      = (row.timestamp.text ++ buffers.timestamp.behind).takeWhile (· ≠ 0) := by
  rw [MessageBuffers.fetch, buffers.timestamp.str_put (fits_text row.timestamp)]
  unfold cString
  rw [row.timestamp.length_text, if_neg (Nat.lt_irrefl 19)]

/-- Contents that fit come out one for one, whatever the memory held before. -/
theorem fetchLoop_shows {rows : List StampedRow} (buffers : MessageBuffers)
    (h : ∀ row ∈ rows, FitsBuffer 4095 row.content) :
    List.Forall₂ Shows (buffers.fetchLoop rows) rows := by
  induction rows generalizing buffers with
  | nil => exact List.Forall₂.nil
  | cons row rows ih =>
    obtain ⟨hrow, hrows⟩ := List.forall_mem_cons.mp h
    have hfetches : fetchesMessage row = true :=
      Bool.and_eq_true_iff.mpr ⟨hrow.fits, fits_text row.timestamp⟩
    have hcontent : (buffers.fetch row).content.str = row.content :=
      buffers.content.str_put_of_fitsBuffer hrow
    rw [MessageBuffers.fetchLoop, if_pos hfetches]
    exact List.Forall₂.cons ⟨rfl, rfl, rfl, hcontent⟩ (ih _ hrows)

/-- With memory that does not end a string, no others do. -/
theorem fits_of_fetchLoop_shows {rows : List StampedRow} {buffers : MessageBuffers}
    {rest : Bytes} (hbehind : buffers.content.behind = 1 :: rest)
    (h : List.Forall₂ Shows (buffers.fetchLoop rows) rows) :
    ∀ row ∈ rows, FitsBuffer 4095 row.content := by
  induction rows generalizing buffers with
  | nil => exact fun row hrow => absurd hrow List.not_mem_nil
  | cons row rows ih =>
    rw [MessageBuffers.fetchLoop] at h
    by_cases hfetches : fetchesMessage row = true
    · rw [if_pos hfetches] at h
      obtain ⟨hshows, hrest⟩ := List.forall₂_cons.mp h
      have hfits := (Bool.and_eq_true_iff.mp hfetches).1
      have hnext : (buffers.fetch row).content.behind = 1 :: rest :=
        (buffers.content.behind_put hfits).trans hbehind
      have hroom := Buffer.fitsBuffer_of_str_put hbehind hfits hshows.2.2.2
      exact List.forall_mem_cons.mpr ⟨hroom, ih hnext hrest⟩
    · rw [if_neg hfetches] at h
      cases h

/-- The statement selects the last messages of the conversation, newest first. -/
theorem HistoryQuery.latest_select (query : HistoryQuery) (rows : List StampedRow)
    (userId friendId : Int32) (limit : Limit) :
    Latest (fun row => row.timestamp.packed) limit.toNat (conversation rows userId friendId)
      (query.select rows userId friendId limit).reverse :=
  latest_take_reverse (query.order_perm _) (query.order_downwards _) limit.toNat

/-- Whenever `get_messages` returns `true` on an empty vector, whatever the memory of its
buffers held, the vector is the rows that the statement has selected, oldest first, one
for one and unchanged; and these are the last messages between the two users. -/
def HistoryComplete {collation : Collation} (query : HistoryQuery)
    (table : MessageTable collation) (userId friendId : Int32) (limit : Limit) : Prop :=
  ∀ (buffers : MessageBuffers) (result : List Message),
    buffers.getMessages query table.rows userId friendId [] limit = some result →
      List.Forall₂ Shows result (query.select table.rows userId friendId limit).reverse
        ∧ Latest (fun row => row.timestamp.packed) limit.toNat
          (conversation table.rows userId friendId)
          (query.select table.rows userId friendId limit).reverse

/-- Memory in which no string ends. -/
def dirtyMessageBuffers : MessageBuffers where
  content := { memory := List.replicate 4096 1, room := by rw [List.length_replicate]; decide }
  timestamp := { memory := List.replicate 20 1, room := by rw [List.length_replicate]; decide }

/-- **When the history is complete**: exactly if the statement is not executed, or every
content that it selects is shorter than the buffer and without a zero byte. -/
theorem historyComplete_iff {collation : Collation} (query : HistoryQuery)
    (table : MessageTable collation) (userId friendId : Int32) (limit : Limit) :
    HistoryComplete query table userId friendId limit ↔ (query.executes = true →
      ∀ row ∈ query.select table.rows userId friendId limit, FitsBuffer 4095 row.content) := by
  unfold HistoryComplete MessageBuffers.getMessages
  constructor
  · intro h hexecutes
    obtain ⟨hshows, _⟩ := h dirtyMessageBuffers _ (if_pos hexecutes)
    rw [List.nil_append, List.forall₂_reverse_iff] at hshows
    have hbehind : dirtyMessageBuffers.content.behind = 1 :: [] := List.drop_replicate
    exact fits_of_fetchLoop_shows hbehind hshows
  · intro h buffers result hresult
    obtain ⟨hexecutes, hresult⟩ := Option.ite_none_right_eq_some.mp hresult
    refine ⟨?_, query.latest_select table.rows userId friendId limit⟩
    rw [← Option.some.inj hresult, List.nil_append, List.forall₂_reverse_iff]
    exact fetchLoop_shows buffers (h hexecutes)

/-! ## A message that does not fit -/

/-- The order that the statement asks for. -/
def NewestFirst (row later : StampedRow) : Prop :=
  later.timestamp.packed ≤ row.timestamp.packed

instance : DecidableRel NewestFirst := fun row later =>
  inferInstanceAs (Decidable (later.timestamp.packed ≤ row.timestamp.packed))

instance : Std.Total NewestFirst :=
  ⟨fun row later => Nat.le_total later.timestamp.packed row.timestamp.packed⟩

instance : IsTrans StampedRow NewestFirst :=
  ⟨fun _ _ _ hfirst hlater => Nat.le_trans hlater hfirst⟩

/-- A statement that is executed, on an order that keeps rows of the same time. -/
def stableQuery : HistoryQuery where
  executes := true
  order := List.insertionSort NewestFirst
  order_perm := List.perm_insertionSort NewestFirst
  order_downwards := List.pairwise_insertionSort NewestFirst

/-- Noon and some seconds. -/
def noon (second : Fin 60) : DateTime :=
  { year := 2024, month := 5, day := 1, hour := 12, minute := 0, second }

/-- `"hi"`, an answer of 4096 bytes, and `"ok"`. -/
def longAnswer : MessageTable utf8 where
  rows := [⟨⟨1, 1, 2, [104, 105]⟩, noon 0⟩, ⟨⟨2, 2, 1, List.replicate 4096 97⟩, noon 1⟩,
    ⟨⟨3, 1, 2, [111, 107]⟩, noon 2⟩]
  text := by decide +kernel
  primaryKey := by decide +kernel

/-- Three messages are stored, and the limit is the default one. The long one and the one
before it are missing from the history. -/
theorem long_message_hides_older :
    (dirtyMessageBuffers.getMessages stableQuery longAnswer.rows 1 2 [] ⟨50, by decide⟩).map
        (List.map fun message => (message.msgId, message.content)) = some [(3, [111, 107])]
    ∧ (conversation longAnswer.rows 1 2).length = 3
    ∧ ¬ HistoryComplete stableQuery longAnswer 1 2 ⟨50, by decide⟩ := by
  refine ⟨by decide +kernel, by decide +kernel, fun h => ?_⟩
  have hlength := (h dirtyMessageBuffers _ rfl).1.length_eq
  exact absurd hlength (by decide +kernel)

end QQChat.Database
