import QQChat.Codec.Client
import QQChat.Lib.Framing

/-!
# The friend list, as the client parses it

`decode_friend_list_response` reads a count that the peer has written, and then, in a
loop of as many rounds, entries of an id and a name. Three checks inside the body end
the loop where an entry is cut off.

An entry is a frame (`friendEntry`): six bytes of header, the last two of which announce
the name. So what is read is a beginning of the greedy parse of the bytes behind the
count, and whatever the count, the loop cannot run longer than the bytes allow.

Mirroring notes:
- `decodeFriendsCounted` is `decodeFriends` with one more result: how often the body of
  the loop was entered. `decodeFriendsCounted_fst` drops it again.
- `entryOf` reads a frame without a loop and without an offset.
- What the parse gives is a list of friends as the server writes it
  (`entriesFrom_friendBytes`).
-/

namespace QQChat

open BigEndian

/-- An entry of the friend list: the id, the length of the name, the name. -/
def friendEntry : Framing UInt8 where
  header := 6
  header_pos := by decide
  bodyLen header := ofBytes (header.drop 4)

theorem friendEntry_total (b : Bytes) :
    friendEntry.total b = 6 + ofBytes ((b.drop 4).take 2) := by
  show 6 + ofBytes ((b.take 6).drop 4) = _
  rw [List.drop_take]

/-- The wire form of one friend. -/
def Server.friendBytes (friendPair : Int32 × Bytes) : Bytes :=
  toBytes 4 friendPair.1.toUInt32.toNat ++ field friendPair.2

namespace Client

/-- The client's record of one of the server's pairs. -/
def friendInfo (friendPair : Int32 × Bytes) : FriendInfo :=
  { friendId := friendPair.1, friendName := friendPair.2 }

/-! ## What the response says -/

namespace FriendList

/-- The error code, if there are two bytes. -/
def errorCode (data : Bytes) : ErrorCode :=
  ⟨UInt16.ofNat (ofBytes (data.take 2))⟩

/-- The number of entries, as the peer has written it. -/
def count (data : Bytes) : Nat :=
  ofBytes ((data.drop 2).take 4)

def entryOf (frame : Bytes) : FriendInfo where
  friendId := (UInt32.ofNat (ofBytes (frame.take 4))).toInt32
  friendName := frame.drop 6

/-- The complete entries from an offset on, before the first incomplete one. -/
def entriesFrom (data : Bytes) (offset : Nat) : List FriendInfo :=
  (friendEntry.parse (data.drop offset)).1.map entryOf

/-- The response is not decoded at all. -/
def Refused (data : Bytes) : Prop :=
  data.length < 6 ∨ errorCode data ≠ .success

instance (data : Bytes) : Decidable (Refused data) :=
  inferInstanceAs (Decidable (_ ∨ _))

theorem errorCode_append (errorCode : ErrorCode) (rest : Bytes) :
    FriendList.errorCode (toBytes 2 errorCode.toUInt16.toNat ++ rest) = errorCode := by
  have htake : (toBytes 2 errorCode.toUInt16.toNat ++ rest).take 2
      = toBytes 2 errorCode.toUInt16.toNat := List.take_left' (length_toBytes 2 _)
  have hnum : ofBytes (toBytes 2 errorCode.toUInt16.toNat) = errorCode.toUInt16.toNat :=
    (ofBytes_toBytes 2 _).trans (Nat.mod_eq_of_lt errorCode.toUInt16.toNat_lt)
  rw [FriendList.errorCode, htake, hnum, UInt16.ofNat_toNat]

end FriendList

open FriendList

/-! ## One entry -/

/-- The length that a body reads is the one that the frame announces. -/
theorem friendEntry_total_drop {data : Bytes} {offset : Nat} {nameLen : UInt16}
    (h : readUint16 data (offset + 4) = some nameLen) :
    friendEntry.total (data.drop offset) = 6 + nameLen.toNat := by
  rw [friendEntry_total, List.drop_drop, ofBytes_of_readUint16 h]

/-- A complete entry is read in bounds, as its frame. -/
theorem read_friendEntry {data : Bytes} {offset : Nat}
    (h : friendEntry.Complete (data.drop offset)) :
    ∃ (friendId : Int32) (nameLen : UInt16),
      readInt32 data offset = some friendId
      ∧ readUint16 data (offset + 4) = some nameLen
      ∧ friendEntry.total (data.drop offset) = 6 + nameLen.toNat
      ∧ offset + 4 + 2 + nameLen.toNat ≤ data.length
      ∧ entryOf ((data.drop offset).take (6 + nameLen.toNat))
        = { friendId, friendName := (data.drop (offset + 4 + 2)).take nameLen.toNat } := by
  obtain ⟨hheader, hroom⟩ := h
  rw [List.length_drop] at hheader hroom
  have hheader : 6 ≤ data.length - offset := hheader
  obtain ⟨friendId, hid, hnum⟩ := readInt32_of_le (show offset + 4 ≤ data.length by omega)
  obtain ⟨nameLen, hlen⟩ := readUint16_of_le (show offset + 4 + 2 ≤ data.length by omega)
  have htotal := friendEntry_total_drop hlen
  refine ⟨friendId, nameLen, hid, hlen, htotal, by omega, ?_⟩
  have hword : UInt32.ofNat (ofBytes ((data.drop offset).take 4)) = friendId.toUInt32 := by
    rw [← hnum, UInt32.ofNat_toNat]
  unfold entryOf
  rw [List.take_take, Nat.min_eq_left (by omega), hword, List.drop_take, List.drop_drop,
    Nat.add_sub_cancel_left]
  rfl

/-! ## The frames are what the server writes -/

theorem drop_friendBytes (friendPair : Int32 × Bytes) :
    (Server.friendBytes friendPair).drop 4 = field friendPair.2 :=
  List.drop_left' (length_toBytes 4 _)

theorem isFrame_friendBytes {friendPair : Int32 × Bytes} (h : friendPair.2.length ≤ 65535) :
    friendEntry.IsFrame (Server.friendBytes friendPair) := by
  have hlen : (Server.friendBytes friendPair).length = 6 + friendPair.2.length := by
    rw [Server.friendBytes, List.length_append, length_toBytes, length_field]
    omega
  have htake : (field friendPair.2).take 2 = toBytes 2 (friendPair.2.length % 2 ^ 16) :=
    List.take_left' (length_toBytes 2 _)
  refine ⟨?_, ?_⟩
  · show 6 ≤ _
    omega
  · rw [friendEntry_total, drop_friendBytes, htake, ofBytes_toBytes, hlen]
    omega

theorem entryOf_friendBytes (friendPair : Int32 × Bytes) :
    entryOf (Server.friendBytes friendPair) = friendInfo friendPair := by
  have hid : (Server.friendBytes friendPair).take 4 = toBytes 4 friendPair.1.toUInt32.toNat :=
    List.take_left' (length_toBytes 4 _)
  have hnum : ofBytes (toBytes 4 friendPair.1.toUInt32.toNat) = friendPair.1.toUInt32.toNat :=
    (ofBytes_toBytes 4 _).trans (Nat.mod_eq_of_lt friendPair.1.toUInt32.toNat_lt)
  have hname : (Server.friendBytes friendPair).drop 6 = friendPair.2 := by
    rw [show 6 = 4 + 2 from rfl, ← List.drop_drop, drop_friendBytes]
    exact List.drop_left' (length_toBytes 2 _)
  unfold entryOf
  rw [hid, hnum, hname, UInt32.ofNat_toNat]
  rfl

/-- There are no other frames. -/
theorem friendBytes_of_isFrame {frame : Bytes} (h : friendEntry.IsFrame frame) :
    ∃ friendPair : Int32 × Bytes, friendPair.2.length ≤ 65535
      ∧ frame = Server.friendBytes friendPair := by
  have hcomplete : friendEntry.Complete (frame.drop 0) := ⟨h.1, Nat.le_of_eq h.2.symm⟩
  obtain ⟨friendId, nameLen, hid, hlen, htotal, hroom, _⟩ := read_friendEntry hcomplete
  have hsize : frame.length = 6 + nameLen.toNat := h.2.trans htotal
  obtain ⟨hname, hfield⟩ := drop_eq_field hlen hroom
  have hlt := nameLen.toNat_lt
  have hshort : ((frame.drop (0 + 4 + 2)).take nameLen.toNat).length ≤ 65535 := by omega
  rw [List.drop_eq_nil_of_le (i := 0 + 4 + 2 + nameLen.toNat) (by omega), List.append_nil]
    at hfield
  refine ⟨(friendId, (frame.drop (0 + 4 + 2)).take nameLen.toNat), hshort, ?_⟩
  rw [Server.friendBytes, ← hfield]
  exact drop_of_readInt32 hid

theorem friendBytes_of_frames {frames : List Bytes}
    (h : ∀ frame ∈ frames, friendEntry.IsFrame frame) :
    ∃ pairs : List (Int32 × Bytes), (∀ f ∈ pairs, f.2.length ≤ 65535)
      ∧ frames = pairs.map Server.friendBytes := by
  induction frames with
  | nil => exact ⟨[], fun f hf => absurd hf List.not_mem_nil, rfl⟩
  | cons frame frames ih =>
    obtain ⟨hframe, hframes⟩ := List.forall_mem_cons.mp h
    obtain ⟨f, hname, rfl⟩ := friendBytes_of_isFrame hframe
    obtain ⟨pairs, hnames, rfl⟩ := ih hframes
    exact ⟨f :: pairs, List.forall_mem_cons.mpr ⟨hname, hnames⟩, rfl⟩

theorem map_entryOf_friendBytes (pairs : List (Int32 × Bytes)) :
    (pairs.map Server.friendBytes).map entryOf = pairs.map friendInfo := by
  rw [List.map_map]
  exact List.map_congr_left fun f _ => entryOf_friendBytes f

theorem friendEntry_not_complete_nil : ¬ friendEntry.Complete [] :=
  fun h => absurd h.1 (by decide)

/-- Friends that the server has written, as far as they are complete, are the entries. -/
theorem entriesFrom_of_drop {data rest : Bytes} {offset : Nat} {pairs : List (Int32 × Bytes)}
    (hnames : ∀ f ∈ pairs, f.2.length ≤ 65535)
    (h : data.drop offset = pairs.flatMap Server.friendBytes ++ rest)
    (hrest : ¬ friendEntry.Complete rest) :
    entriesFrom data offset = pairs.map friendInfo := by
  have hparse : friendEntry.IsParse (data.drop offset) (pairs.map Server.friendBytes) rest := by
    refine ⟨?_, fun frame hframe => ?_, hrest⟩
    · rw [h, List.flatMap_def]
    · obtain ⟨f, hf, rfl⟩ := List.mem_map.mp hframe
      exact isFrame_friendBytes (hnames f hf)
  rw [entriesFrom, hparse.unique]
  exact map_entryOf_friendBytes pairs

/-- **What the greedy parse is, in the server's terms**: the entries are those of the
longest list of friends whose wire form stands at the offset. -/
theorem entriesFrom_friendBytes (data : Bytes) (offset : Nat) :
    ∃ (pairs : List (Int32 × Bytes)) (rest : Bytes), (∀ f ∈ pairs, f.2.length ≤ 65535)
      ∧ data.drop offset = pairs.flatMap Server.friendBytes ++ rest
      ∧ entriesFrom data offset = pairs.map friendInfo
      ∧ ∀ (f : Int32 × Bytes) (later : Bytes), f.2.length ≤ 65535 →
        rest ≠ Server.friendBytes f ++ later := by
  have hspec := Framing.parse_spec (F := friendEntry) (data.drop offset)
  obtain ⟨pairs, hnames, hframes⟩ := friendBytes_of_frames hspec.isFrame
  refine ⟨pairs, (friendEntry.parse (data.drop offset)).2, hnames, ?_, ?_, ?_⟩
  · rw [List.flatMap_def, ← hframes]
    exact hspec.flatten_append.symm
  · rw [entriesFrom, hframes]
    exact map_entryOf_friendBytes pairs
  · intro f later hname hrest
    have hcomplete := ((isFrame_friendBytes hname).complete_append later).1
    rw [← hrest] at hcomplete
    exact hspec.not_complete hcomplete

/-! ## The loop, counted -/

/-- `decodeFriends`, and how often its body starts. -/
def decodeFriendsCounted (data : Bytes) :
    Nat → Nat → List FriendInfo → Access (List FriendInfo × Nat)
  | 0, _, friends => return (friends, 0)
  | rounds + 1, offset, friends => do
    if offset + 4 > data.length then return (friends, 1)
    let friendId ← readInt32 data offset
    let offset := offset + 4
    if offset + 2 > data.length then return (friends, 1)
    let nameLen ← readUint16 data offset
    let offset := offset + 2
    if offset + nameLen.toNat > data.length then return (friends, 1)
    let friendName ← readString data offset nameLen.toNat
    let (friends, starts) ← decodeFriendsCounted data rounds (offset + nameLen.toNat)
      (friends ++ [{ friendId, friendName }])
    return (friends, starts + 1)

theorem decodeFriendsCounted_fst (data : Bytes) (rounds offset : Nat)
    (friends : List FriendInfo) :
    (decodeFriendsCounted data rounds offset friends).map Prod.fst
      = decodeFriends data rounds offset friends := by
  induction rounds generalizing offset friends with
  | zero => rfl
  | succ rounds ih =>
    rw [decodeFriendsCounted, decodeFriends]
    by_cases hid : offset + 4 > data.length
    · rw [if_pos hid, if_pos hid]
      rfl
    rw [if_neg hid, if_neg hid]
    cases readInt32 data offset with
    | none => rfl
    | some friendId =>
      simp only [Option.bind_eq_bind, Option.bind_some]
      by_cases hlen : offset + 4 + 2 > data.length
      · rw [if_pos hlen, if_pos hlen]
        rfl
      rw [if_neg hlen, if_neg hlen]
      cases readUint16 data (offset + 4) with
      | none => rfl
      | some nameLen =>
        simp only [Option.bind_some]
        by_cases hname : offset + 4 + 2 + nameLen.toNat > data.length
        · rw [if_pos hname, if_pos hname]
          rfl
        rw [if_neg hname, if_neg hname]
        cases readString data (offset + 4 + 2) nameLen.toNat with
        | none => rfl
        | some friendName =>
          simp only [Option.bind_some, ← ih]
          cases decodeFriendsCounted data rounds (offset + 4 + 2 + nameLen.toNat)
            (friends ++ [(⟨friendId, friendName⟩ : FriendInfo)]) <;> rfl

/-- A round that finds an entry complete appends it and goes on behind it. -/
theorem decodeFriendsCounted_of_complete {data : Bytes} {offset : Nat}
    (h : friendEntry.Complete (data.drop offset)) (rounds : Nat) (friends : List FriendInfo) :
    decodeFriendsCounted data (rounds + 1) offset friends
      = (decodeFriendsCounted data rounds (offset + friendEntry.total (data.drop offset))
          (friends ++ [entryOf ((data.drop offset).take
            (friendEntry.total (data.drop offset)))])).map fun r => (r.1, r.2 + 1) := by
  obtain ⟨friendId, nameLen, hid, hlen, htotal, hroom, hentry⟩ := read_friendEntry h
  rw [decodeFriendsCounted, if_neg (by omega), hid]
  simp only [Option.bind_eq_bind, Option.bind_some]
  rw [if_neg (by omega), hlen]
  simp only [Option.bind_some]
  rw [if_neg (by omega), readString, if_pos hroom, htotal, hentry,
    show offset + (6 + nameLen.toNat) = offset + 4 + 2 + nameLen.toNat by omega]
  simp only [Option.bind_some]
  cases decodeFriendsCounted data rounds (offset + 4 + 2 + nameLen.toNat)
    (friends ++ [⟨friendId, (data.drop (offset + 4 + 2)).take nameLen.toNat⟩]) <;> rfl

/-- A round that finds it cut off, wherever, ends the loop. -/
theorem decodeFriendsCounted_of_not_complete {data : Bytes} {offset : Nat}
    (h : ¬ friendEntry.Complete (data.drop offset)) (rounds : Nat) (friends : List FriendInfo) :
    decodeFriendsCounted data (rounds + 1) offset friends = some (friends, 1) := by
  rw [decodeFriendsCounted]
  by_cases hid : offset + 4 > data.length
  · exact if_pos hid
  obtain ⟨friendId, hreadId, _⟩ := readInt32_of_le (show offset + 4 ≤ data.length by omega)
  rw [if_neg hid, hreadId]
  simp only [Option.bind_eq_bind, Option.bind_some]
  by_cases hlen : offset + 4 + 2 > data.length
  · exact if_pos hlen
  obtain ⟨nameLen, hreadLen⟩ := readUint16_of_le (show offset + 4 + 2 ≤ data.length by omega)
  have hname : offset + 4 + 2 + nameLen.toNat > data.length := by
    refine Nat.lt_of_not_le fun hroom => h ⟨?_, ?_⟩
    · show 6 ≤ (data.drop offset).length
      rw [List.length_drop]
      omega
    · rw [friendEntry_total_drop hreadLen, List.length_drop]
      omega
  rw [if_neg hlen, hreadLen]
  simp only [Option.bind_some]
  exact if_pos hname

/-- **The loop is a bounded greedy parse**: it appends the entries that are complete, as
many as there are rounds for, and starts its body once more only to see that one is not. -/
theorem decodeFriendsCounted_eq (data : Bytes) (rounds offset : Nat)
    (friends : List FriendInfo) :
    decodeFriendsCounted data rounds offset friends
      = some (friends ++ (entriesFrom data offset).take rounds,
        min rounds ((entriesFrom data offset).length + 1)) := by
  induction rounds generalizing offset friends with
  | zero =>
    rw [List.take_zero, List.append_nil, Nat.zero_min]
    rfl
  | succ rounds ih =>
    by_cases h : friendEntry.Complete (data.drop offset)
    · have hentries : entriesFrom data offset
          = entryOf ((data.drop offset).take (friendEntry.total (data.drop offset)))
            :: entriesFrom data (offset + friendEntry.total (data.drop offset)) := by
        unfold entriesFrom
        rw [Framing.parse_of_complete h, List.drop_drop, List.map_cons]
      rw [decodeFriendsCounted_of_complete h, ih, hentries, List.take_succ_cons,
        List.length_cons, Nat.add_min_add_right, List.append_assoc]
      rfl
    · have hentries : entriesFrom data offset = [] := by
        unfold entriesFrom
        rw [Framing.parse_of_not_complete h, List.map_nil]
      rw [decodeFriendsCounted_of_not_complete h, hentries, List.take_nil, List.append_nil,
        List.length_nil, Nat.min_eq_right (by omega)]

/-- Each entry takes at least its six bytes. -/
theorem length_entriesFrom (data : Bytes) (offset : Nat) :
    (entriesFrom data offset).length ≤ (data.length - offset) / 6 := by
  have hle : 6 * (friendEntry.parse (data.drop offset)).1.length ≤ (data.drop offset).length :=
    Framing.header_mul_length_parse_le (F := friendEntry) _
  rw [List.length_drop] at hle
  unfold entriesFrom
  rw [List.length_map]
  omega

/-! ## The response -/

/-- `decodeFriendListResponse`, and how often the body of its loop starts. -/
def decodeFriendListResponseCounted (data : Bytes) (friends : List FriendInfo) :
    Access ((Bool × List FriendInfo) × Nat) := do
  if data.length < 6 then return ((false, friends), 0)
  let errorCode ← readUint16 data 0
  if (⟨errorCode⟩ : ErrorCode) ≠ .success then return ((false, friends), 0)
  let count ← readUint32 data 2
  let (friends, starts) ← decodeFriendsCounted data count.toNat 6 friends
  return ((true, friends), starts)

theorem decodeFriendListResponseCounted_fst (data : Bytes) (friends : List FriendInfo) :
    (decodeFriendListResponseCounted data friends).map Prod.fst
      = decodeFriendListResponse data friends := by
  unfold decodeFriendListResponseCounted decodeFriendListResponse
  by_cases hsize : data.length < 6
  · rw [if_pos hsize, if_pos hsize]
    rfl
  rw [if_neg hsize, if_neg hsize]
  cases readUint16 data 0 with
  | none => rfl
  | some errorCode =>
    simp only [Option.bind_eq_bind, Option.bind_some]
    by_cases herror : (⟨errorCode⟩ : ErrorCode) ≠ .success
    · rw [if_pos herror, if_pos herror]
      rfl
    rw [if_neg herror, if_neg herror]
    cases readUint32 data 2 with
    | none => rfl
    | some count =>
      simp only [Option.bind_some, ← decodeFriendsCounted_fst]
      cases decodeFriendsCounted data count.toNat 6 friends <;> rfl

theorem decodeFriendListResponseCounted_eq (data : Bytes) (friends : List FriendInfo) :
    decodeFriendListResponseCounted data friends
      = some (if Refused data then ((false, friends), 0)
        else ((true, friends ++ (entriesFrom data 6).take (count data)),
          min (count data) ((entriesFrom data 6).length + 1))) := by
  unfold decodeFriendListResponseCounted
  by_cases hsize : data.length < 6
  · rw [if_pos hsize, if_pos (show Refused data from Or.inl hsize)]
    rfl
  obtain ⟨code, hcode⟩ := readUint16_of_le (show 0 + 2 ≤ data.length by omega)
  obtain ⟨rounds, hrounds, hcount⟩ := readUint32_of_le (show 2 + 4 ≤ data.length by omega)
  have herror : errorCode data = ⟨code⟩ := by
    have hnum := ofBytes_of_readUint16 hcode
    rw [List.drop_zero] at hnum
    rw [errorCode, hnum, UInt16.ofNat_toNat]
  have hcount : rounds.toNat = count data := hcount
  rw [if_neg hsize, hcode, hrounds]
  simp only [Option.bind_eq_bind, Option.bind_some]
  by_cases hrefused : errorCode data ≠ .success
  · rw [if_pos (herror ▸ hrefused), if_pos (show Refused data from Or.inr hrefused)]
    rfl
  · rw [if_neg (herror ▸ hrefused), if_neg (show ¬ Refused data from not_or_intro hsize hrefused),
      decodeFriendsCounted_eq, hcount]
    rfl

/-- What the decoder returns, for every input. -/
theorem decodeFriendListResponse_eq (data : Bytes) (friends : List FriendInfo) :
    decodeFriendListResponse data friends
      = some (if Refused data then (false, friends)
        else (true, friends ++ (entriesFrom data 6).take (count data))) := by
  rw [← decodeFriendListResponseCounted_fst, decodeFriendListResponseCounted_eq]
  by_cases hrefused : Refused data
  · rw [if_pos hrefused, if_pos hrefused]
    rfl
  · rw [if_neg hrefused, if_neg hrefused]
    rfl

/-- **The friend list is the beginning of the greedy parse.** The decoder refuses exactly
a response that is too short or carries an error, and then leaves the vector as it was;
otherwise it appends the first entries of the parse, as many as were announced and are
complete. Whatever was announced, it stays inside the bytes, and its loop starts no more
rounds than they have room for, and one. -/
theorem decodeFriendListResponse_greedy (data : Bytes) (friends : List FriendInfo) :
    decodeFriendListResponse data friends = some (if Refused data then (false, friends)
        else (true, friends
          ++ (entriesFrom data 6).take (min (count data) (entriesFrom data 6).length)))
      ∧ ∃ starts, decodeFriendListResponseCounted data friends
          = (decodeFriendListResponse data friends).map (fun result => (result, starts))
        ∧ starts ≤ (data.length - 6) / 6 + 1 := by
  have hlen := length_entriesFrom data 6
  have htake : (entriesFrom data 6).take (min (count data) (entriesFrom data 6).length)
      = (entriesFrom data 6).take (count data) := List.take_eq_take_min.symm
  rw [decodeFriendListResponse_eq, decodeFriendListResponseCounted_eq, htake]
  refine ⟨rfl, ?_⟩
  by_cases hrefused : Refused data
  · rw [if_pos hrefused, if_pos hrefused]
    exact ⟨0, rfl, Nat.zero_le _⟩
  · rw [if_neg hrefused, if_neg hrefused]
    exact ⟨_, rfl, by omega⟩

end Client

end QQChat
