import QQChat.Codec.Server
import QQChat.Codec.Client

/-!
# The decoders that trust a 32-bit length

`decode_message_request` and `decode_message_notify` check `4 + 4 + content_len` and
`8 + content_len + 8` against `data.size()` in `uint32_t`. A length so close to 2^32
that the sum wraps passes the check and is then used as it is, by `read_string` and, in
the notification, as the index of the timestamp.

`RequestExact` and `NotifyExact` are what a bound check in exact arithmetic gives. Both
decoders have it off the wrapping lengths and only there (`requestExact_iff`,
`notifyExact_iff`): on each of those, a byte outside the vector is read.
-/

namespace QQChat

open BigEndian

/-- The length of the content, as the peer has written it. -/
def contentLen (data : Bytes) : Nat :=
  ofBytes ((data.drop 4).take 4)

/-- What a decoder of the message format does with exact sums: it reads inside `data`,
accepts if and only if the content does, and returns the bytes at their places. -/
def RequestExact (decode : Bytes → Access (Option MessageRequest)) (data : Bytes) : Prop :=
  ∃ result, decode data = some result
    ∧ (result.isSome ↔ 8 ≤ data.length ∧ 8 + contentLen data ≤ data.length)
    ∧ ∀ req, result = some req → req.toId.toUInt32.toNat = ofBytes (data.take 4)
      ∧ req.content = (data.drop 8).take (contentLen data)

/-- The same for a notification, whose timestamp follows its content. -/
def NotifyExact (decode : Bytes → Access (Option MessageNotify)) (data : Bytes) : Prop :=
  ∃ result, decode data = some result
    ∧ (result.isSome ↔ 16 ≤ data.length ∧ 16 + contentLen data ≤ data.length)
    ∧ ∀ notify, result = some notify → notify.fromId.toUInt32.toNat = ofBytes (data.take 4)
      ∧ notify.content = (data.drop 8).take (contentLen data)
      ∧ notify.timestamp.toUInt64.toNat = ofBytes ((data.drop (8 + contentLen data)).take 8)

/-- The length of the message makes the sum of the check wrap. -/
def RequestWraps (data : Bytes) : Prop :=
  8 ≤ data.length ∧ 2 ^ 32 - 8 ≤ contentLen data

def NotifyWraps (data : Bytes) : Prop :=
  16 ≤ data.length ∧ 2 ^ 32 - 16 ≤ contentLen data

theorem readString_of_le {data : Bytes} {offset len : Nat} (h : offset + len ≤ data.length) :
    readString data offset len = some ((data.drop offset).take len) :=
  if_pos h

theorem readString_of_lt {data : Bytes} {offset len : Nat} (h : data.length < offset + len) :
    readString data offset len = none :=
  if_neg (Nat.not_le_of_gt h)

/-! ## The request -/

/-- `decode_message_request` past its initial guard. -/
theorem decodeMessageRequest_of_le {data : Bytes} (h : 8 ≤ data.length) :
    ∃ (toId : Int32) (len : UInt32), toId.toUInt32.toNat = ofBytes (data.take 4)
      ∧ len.toNat = contentLen data
      ∧ Server.decodeMessageRequest data = (if (8 + len.toNat) % 2 ^ 32 > data.length then some none
        else (readString data 8 len.toNat).map fun content => some { toId, content }) := by
  obtain ⟨toId, htoId, hid⟩ := readInt32_of_le (show 0 + 4 ≤ data.length by omega)
  obtain ⟨len, hlen, hnum⟩ := readUint32_of_le (show 4 + 4 ≤ data.length by omega)
  have hsum : (4 + 4 + len).toNat = (8 + len.toNat) % 2 ^ 32 := UInt32.toNat_add 8 len
  refine ⟨toId, len, hid, hnum, ?_⟩
  unfold Server.decodeMessageRequest
  simp only [if_neg (Nat.not_lt.mpr h), htoId, hlen, hsum, Option.bind_eq_bind, Option.bind_some]
  split
  · rfl
  · cases readString data 8 len.toNat <;> rfl

theorem requestExact_iff {data : Bytes} (hdata : data.length < 2 ^ 32) :
    RequestExact Server.decodeMessageRequest data ↔ ¬ RequestWraps data := by
  by_cases hsize : 8 ≤ data.length
  · obtain ⟨toId, len, hid, hlen, hdecode⟩ := decodeMessageRequest_of_le hsize
    have hlt := len.toNat_lt
    by_cases hwrap : 2 ^ 32 - 8 ≤ len.toNat
    · -- The check passes on a sum below eight, and the content is read far outside.
      rw [if_neg (by omega), readString_of_lt (by omega)] at hdecode
      refine iff_of_false ?_ fun hnot => hnot ⟨hsize, hlen ▸ hwrap⟩
      rintro ⟨result, hresult, _⟩
      rw [hdecode] at hresult
      cases hresult
    · rw [Nat.mod_eq_of_lt (by omega)] at hdecode
      refine iff_of_true ?_ fun hwraps => hwrap (hlen ▸ hwraps.2)
      by_cases hroom : 8 + len.toNat > data.length
      · rw [if_pos hroom] at hdecode
        refine ⟨none, hdecode, iff_of_false (by decide) fun hand => ?_, fun req hreq => ?_⟩
        · omega
        · cases hreq
      · rw [if_neg hroom, readString_of_le (by omega)] at hdecode
        refine ⟨_, hdecode, iff_of_true rfl ⟨hsize, by omega⟩, fun req hreq => ?_⟩
        cases hreq
        exact ⟨hid, by rw [hlen]⟩
  · refine iff_of_true ⟨none, if_pos (Nat.lt_of_not_le hsize), ?_, ?_⟩ fun hwraps => hsize hwraps.1
    · exact iff_of_false (by decide) fun hand => hsize hand.1
    · exact fun req hreq => by cases hreq

/-! ## The notification -/

/-- Both codecs have the same `decode_message_notify`. -/
theorem decodeMessageNotify_eq : Client.decodeMessageNotify = Server.decodeMessageNotify :=
  rfl

/-- `decode_message_notify` past its initial guard. -/
theorem decodeMessageNotify_of_le {data : Bytes} (h : 16 ≤ data.length) :
    ∃ (fromId : Int32) (len : UInt32), fromId.toUInt32.toNat = ofBytes (data.take 4)
      ∧ len.toNat = contentLen data
      ∧ Server.decodeMessageNotify data = (if (16 + len.toNat) % 2 ^ 32 > data.length then some none
        else (readString data 8 len.toNat).bind fun content =>
          (readInt64 data ((8 + len.toNat) % 2 ^ 32)).map fun timestamp =>
            some { fromId, content, timestamp }) := by
  obtain ⟨fromId, hfromId, hid⟩ := readInt32_of_le (show 0 + 4 ≤ data.length by omega)
  obtain ⟨len, hlen, hnum⟩ := readUint32_of_le (show 4 + 4 ≤ data.length by omega)
  have hindex : (8 + len).toNat = (8 + len.toNat) % 2 ^ 32 := UInt32.toNat_add 8 len
  have hsum : (8 + len + 8).toNat = (16 + len.toNat) % 2 ^ 32 := by
    rw [UInt32.toNat_add, hindex, show (8 : UInt32).toNat = 8 from rfl]
    omega
  refine ⟨fromId, len, hid, hnum, ?_⟩
  unfold Server.decodeMessageNotify
  simp only [if_neg (Nat.not_lt.mpr h), hfromId, hlen, hsum, hindex, Option.bind_eq_bind,
    Option.bind_some]
  split
  · rfl
  · cases readString data 8 len.toNat with
    | none => rfl
    | some content => cases readInt64 data ((8 + len.toNat) % 2 ^ 32) <;> rfl

theorem notifyExact_iff {data : Bytes} (hdata : data.length < 2 ^ 32) :
    NotifyExact Server.decodeMessageNotify data ↔ ¬ NotifyWraps data := by
  by_cases hsize : 16 ≤ data.length
  · obtain ⟨fromId, len, hid, hlen, hdecode⟩ := decodeMessageNotify_of_le hsize
    have hlt := len.toNat_lt
    by_cases hwrap : 2 ^ 32 - 16 ≤ len.toNat
    · refine iff_of_false ?_ fun hnot => hnot ⟨hsize, hlen ▸ hwrap⟩
      rintro ⟨result, hresult, _⟩
      rw [hdecode, if_neg (by omega)] at hresult
      obtain ⟨content, hcontent, htimestamp⟩ := Option.bind_eq_some_iff.mp hresult
      obtain ⟨timestamp, htimestamp, _⟩ := Option.map_eq_some_iff.mp htimestamp
      -- If the content lies inside, the index has not wrapped, and the timestamp does not.
      have hroom : 8 + len.toNat ≤ data.length := by
        refine Nat.le_of_not_lt fun hout => ?_
        rw [readString_of_lt hout] at hcontent
        cases hcontent
      have hle := le_of_readInt64 htimestamp
      omega
    · rw [Nat.mod_eq_of_lt (by omega), Nat.mod_eq_of_lt (by omega)] at hdecode
      refine iff_of_true ?_ fun hwraps => hwrap (hlen ▸ hwraps.2)
      by_cases hroom : 16 + len.toNat > data.length
      · rw [if_pos hroom] at hdecode
        refine ⟨none, hdecode, iff_of_false (by decide) fun hand => ?_, fun notify hnotify => ?_⟩
        · omega
        · cases hnotify
      · obtain ⟨timestamp, hread, hnum⟩ :=
          readInt64_of_le (show 8 + len.toNat + 8 ≤ data.length by omega)
        rw [if_neg hroom, readString_of_le (by omega), Option.bind_some, hread] at hdecode
        refine ⟨_, hdecode, iff_of_true rfl ⟨hsize, by omega⟩, fun notify hnotify => ?_⟩
        cases hnotify
        exact ⟨hid, by rw [hlen], by rw [← hlen, hnum]⟩
  · refine iff_of_true ⟨none, if_pos (Nat.lt_of_not_le hsize), ?_, ?_⟩ fun hwraps => hsize hwraps.1
    · exact iff_of_false (by decide) fun hand => hsize hand.1
    · exact fun notify hnotify => by cases hnotify

/-- **When the length check is exact.** On a vector shorter than 2^32 bytes, the three
decoders read inside it, accept if and only if the announced content lies inside, and
return the bytes at their places, exactly when the announced length does not wrap their
32-bit sum. -/
theorem length_decoders_exact (data : Bytes) (hdata : data.length < 2 ^ 32) :
    (RequestExact Server.decodeMessageRequest data ↔ ¬ RequestWraps data)
    ∧ (NotifyExact Server.decodeMessageNotify data ↔ ¬ NotifyWraps data)
    ∧ (NotifyExact Client.decodeMessageNotify data ↔ ¬ NotifyWraps data) :=
  ⟨requestExact_iff hdata, notifyExact_iff hdata, notifyExact_iff hdata⟩

/-- A notification of two bytes from user 7, with the timestamp 1. -/
theorem length_decoders_exact_value :
    NotifyExact Client.decodeMessageNotify
      [0, 0, 0, 7, 0, 0, 0, 2, 104, 105, 0, 0, 0, 0, 0, 0, 0, 1] :=
  (length_decoders_exact [0, 0, 0, 7, 0, 0, 0, 2, 104, 105, 0, 0, 0, 0, 0, 0, 0, 1]
    (by decide)).2.2.mpr fun hwraps => absurd hwraps.2 (by decide)

/-- Eight bytes that announce a content of 2^32 - 8 pass the check, and four gibibytes
behind them are read; sixteen that announce 2^32 - 16 pass that of a notification. -/
theorem wrapped_length_read_outside :
    Server.decodeMessageRequest [0, 0, 0, 1, 255, 255, 255, 248] = none
    ∧ ¬ RequestExact Server.decodeMessageRequest [0, 0, 0, 1, 255, 255, 255, 248]
    ∧ ¬ NotifyExact Client.decodeMessageNotify
      [0, 0, 0, 1, 255, 255, 255, 240, 0, 0, 0, 0, 0, 0, 0, 0] := by
  refine ⟨by decide, ?_, ?_⟩
  · rw [requestExact_iff (by decide), Classical.not_not]
    exact ⟨by decide, by decide⟩
  · rw [decodeMessageNotify_eq, notifyExact_iff (by decide), Classical.not_not]
    exact ⟨by decide, by decide⟩

end QQChat
