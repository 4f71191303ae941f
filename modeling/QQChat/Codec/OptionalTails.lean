import QQChat.Codec.Client

/-!
# The client's decoders with optional tails

Three responses end in strings that may be missing, and each decoder guards them in its
own words: `decode_version_check_response` asks for the two bytes of a length,
`offset + 2 <= data.size()`, the other two for one byte more, `offset < data.size()`.
One byte is not a length, so a response cut after the first byte of it is read beyond
its end (`decodeLoginResponse_inBounds_iff`, `decodeSecurityQuestionResponse_inBounds_iff`).

`tailAt` is one block behind the guard of the first kind, without the reads: what the
field becomes, and the offset behind what was read.
-/

namespace QQChat.Client

open BigEndian

/-- `str` stands in `data`, complete, behind its length. -/
def LiesIn (data str : Bytes) : Prop :=
  str.length ≤ 65535 ∧ ∃ offset rest, data.drop offset = field str ++ rest

/-- A decoder stays inside `data` whatever its out-parameter holds, and leaves each of
its optional strings as it was or sets it to one that lies in `data`. -/
def InBounds {Resp : Type} (decode : Bytes → Resp → Access (Option Resp))
    (tails : List (Resp → Bytes)) (data : Bytes) : Prop :=
  ∀ resp, ∃ result, decode data resp = some result
    ∧ ∀ resp', result = some resp' →
      ∀ tail ∈ tails, tail resp' = tail resp ∨ LiesIn data (tail resp')

/-! ## One block -/

/-- The number that a block at this offset takes for a length. -/
def lengthAt (data : Bytes) (offset : Nat) : Nat :=
  ofBytes ((data.drop offset).take 2)

/-- One block behind its guard. -/
def tailAt (data : Bytes) (offset : Nat) (old : Bytes) : Bytes × Nat :=
  if offset + 2 ≤ data.length then
    if offset + 2 + lengthAt data offset ≤ data.length then
      ((data.drop (offset + 2)).take (lengthAt data offset), offset + 2 + lengthAt data offset)
    else (old, offset + 2)
  else (old, offset)

section

variable {data : Bytes} {offset : Nat}

theorem tailAt_of_fits (h : offset + 2 + lengthAt data offset ≤ data.length) (old : Bytes) :
    tailAt data offset old
      = ((data.drop (offset + 2)).take (lengthAt data offset),
        offset + 2 + lengthAt data offset) := by
  rw [tailAt, if_pos (by omega), if_pos h]

theorem tailAt_of_cut (h : offset + 2 ≤ data.length)
    (hcut : data.length < offset + 2 + lengthAt data offset) (old : Bytes) :
    tailAt data offset old = (old, offset + 2) := by
  rw [tailAt, if_pos h, if_neg (Nat.not_le.mpr hcut)]

theorem tailAt_of_lt (h : data.length < offset + 2) (old : Bytes) :
    tailAt data offset old = (old, offset) := by
  rw [tailAt, if_neg (Nat.not_le.mpr h)]

/-- It leaves the field as it was, or sets it to the string that stands there. -/
theorem tailAt_fst (data : Bytes) (offset : Nat) (old : Bytes) :
    (tailAt data offset old).1 = old ∨ (tailAt data offset old).1.length ≤ 65535
      ∧ ∃ rest, data.drop offset = field (tailAt data offset old).1 ++ rest := by
  by_cases hfits : offset + 2 + lengthAt data offset ≤ data.length
  · obtain ⟨len, hlen⟩ := readUint16_of_le (show offset + 2 ≤ data.length by omega)
    have hnum : lengthAt data offset = len.toNat := ofBytes_of_readUint16 hlen
    have hlt := len.toNat_lt
    obtain ⟨hstr, hfield⟩ := drop_eq_field hlen (hnum ▸ hfits)
    rw [tailAt_of_fits hfits, hnum]
    exact Or.inr
      ⟨show ((data.drop (offset + 2)).take len.toNat).length ≤ 65535 by omega, _, hfield⟩
  · refine Or.inl ?_
    by_cases hbegins : offset + 2 ≤ data.length
    · rw [tailAt_of_cut hbegins (Nat.lt_of_not_le hfits)]
    · rw [tailAt_of_lt (Nat.lt_of_not_le hbegins)]

theorem tailAt_liesIn (data : Bytes) (offset : Nat) (old : Bytes) :
    (tailAt data offset old).1 = old ∨ LiesIn data (tailAt data offset old).1 :=
  (tailAt_fst data offset old).imp_right fun h => ⟨h.1, offset, h.2⟩

end

theorem readOptional_eq_tailAt {data : Bytes} {offset : Nat} (h : offset + 2 ≤ data.length)
    (old : Bytes) : readOptional data offset old = some (tailAt data offset old) := by
  obtain ⟨len, hlen⟩ := readUint16_of_le h
  have hnum : lengthAt data offset = len.toNat := ofBytes_of_readUint16 hlen
  unfold readOptional tailAt
  rw [if_pos h, hlen, hnum]
  simp only [Option.bind_eq_bind, Option.bind_some]
  by_cases hroom : offset + 2 + len.toNat ≤ data.length
  · rw [if_pos hroom, if_pos hroom, readString, if_pos hroom]
    rfl
  · rw [if_neg hroom, if_neg hroom]
    rfl

theorem bind_tail {data : Bytes} {offset : Nat} {old : Bytes} {β : Type}
    (next : Bytes × Nat → Access β) :
    (if offset + 2 ≤ data.length then (readOptional data offset old).bind next
      else Option.bind (pure (old, offset)) next) = next (tailAt data offset old) := by
  by_cases h : offset + 2 ≤ data.length
  · rw [if_pos h, readOptional_eq_tailAt h, Option.bind_some]
  · rw [if_neg h, tailAt, if_neg h]
    rfl

/-- An optional string whose length is there is read in bounds. -/
theorem readOptional_of_le {data : Bytes} {offset : Nat} (h : offset + 2 ≤ data.length)
    (old : Bytes) :
    ∃ str offset', readOptional data offset old = some (str, offset')
      ∧ (str = old ∨ LiesIn data str) :=
  ⟨_, _, readOptional_eq_tailAt h old, tailAt_liesIn data offset old⟩

/-- One byte of a length is not read in bounds. -/
theorem readOptional_of_lt {data : Bytes} {offset : Nat} (h : data.length < offset + 2)
    (old : Bytes) : readOptional data offset old = none := by
  have h1 : data[offset + 1]? = none := List.getElem?_eq_none (by omega)
  unfold readOptional readUint16
  rw [h1]
  cases data[offset]? <;> rfl

/-- A decoder that ends in an optional string, from `offset` on, and asks for one byte. -/
theorem inBounds_tail_iff {Resp : Type} {decode : Bytes → Resp → Access (Option Resp)}
    {tail : Resp → Bytes} {f : Bytes → Resp} {data : Bytes} {offset : Nat}
    (htail : ∀ str, tail (f str) = str)
    (hdecode : ∀ resp, decode data resp =
      if offset < data.length then
        (readOptional data offset (tail resp)).bind fun read => some (some (f read.1))
      else some (some (f (tail resp)))) :
    InBounds decode [tail] data ↔ data.length ≠ offset + 1 := by
  by_cases hone : data.length = offset + 1
  · refine iff_of_false (fun h => ?_) (fun hne => hne hone)
    obtain ⟨result, hresult, _⟩ := h (f [])
    rw [hdecode, if_pos (by omega), readOptional_of_lt (by omega)] at hresult
    cases hresult
  · refine iff_of_true (fun resp => ?_) hone
    rw [hdecode]
    by_cases hguard : offset < data.length
    · obtain ⟨str, offset', hread, hstr⟩ :=
        readOptional_of_le (show offset + 2 ≤ data.length by omega) (tail resp)
      rw [if_pos hguard, hread]
      refine ⟨_, rfl, fun resp' h => ?_⟩
      cases h
      rw [List.forall_mem_singleton, htail]
      exact hstr
    · rw [if_neg hguard]
      refine ⟨_, rfl, fun resp' h => ?_⟩
      cases h
      rw [List.forall_mem_singleton, htail]
      exact Or.inl rfl

theorem decodeLoginResponse_inBounds_iff (data : Bytes) :
    InBounds decodeLoginResponse [LoginResponse.username] data ↔ data.length ≠ 7 := by
  by_cases hsize : data.length < 6
  · exact iff_of_true (fun resp => ⟨none, if_pos hsize, fun _ h => by cases h⟩) (by omega)
  obtain ⟨errorCode, herror⟩ := readUint16_of_le (show 0 + 2 ≤ data.length by omega)
  obtain ⟨userId, huser, _⟩ := readInt32_of_le (show 2 + 4 ≤ data.length by omega)
  refine inBounds_tail_iff (f := fun username => ⟨⟨errorCode⟩, userId, username⟩)
    (fun _ => rfl) fun resp => ?_
  unfold decodeLoginResponse
  simp only [if_neg hsize, herror, huser, Option.bind_eq_bind, Option.bind_some]
  rfl

theorem decodeSecurityQuestionResponse_inBounds_iff (data : Bytes) :
    InBounds decodeSecurityQuestionResponse [SecurityQuestionResponse.question] data
      ↔ data.length ≠ 3 := by
  by_cases hsize : data.length < 2
  · exact iff_of_true (fun resp => ⟨none, if_pos hsize, fun _ h => by cases h⟩) (by omega)
  obtain ⟨errorCode, herror⟩ := readUint16_of_le (show 0 + 2 ≤ data.length by omega)
  refine inBounds_tail_iff (f := fun question => ⟨⟨errorCode⟩, question⟩)
    (fun _ => rfl) fun resp => ?_
  unfold decodeSecurityQuestionResponse
  simp only [if_neg hsize, herror, Option.bind_eq_bind, Option.bind_some]
  rfl

/-- Behind the guard that asks for a whole length, what follows always gets a value. -/
theorem ite_readOptional (data : Bytes) (offset : Nat) (old : Bytes) :
    ∃ str offset', (∀ {β : Type} (next : Bytes × Nat → Access β),
        (if offset + 2 ≤ data.length then (readOptional data offset old).bind next
          else Option.bind (pure (old, offset)) next) = next (str, offset'))
      ∧ (str = old ∨ LiesIn data str) :=
  ⟨_, _, fun next => bind_tail next, tailAt_liesIn data offset old⟩

theorem decodeVersionCheckResponse_inBounds (data : Bytes) :
    InBounds decodeVersionCheckResponse
      [VersionCheckResponse.updateUrl, VersionCheckResponse.updateDesc] data := by
  intro resp
  by_cases hsize : data.length < 6
  · exact ⟨none, if_pos hsize, fun _ h => by cases h⟩
  obtain ⟨errorCode, herror⟩ := readUint16_of_le (show 0 + 2 ≤ data.length by omega)
  obtain ⟨serverVersion, hversion, _⟩ := readInt32_of_le (show 2 + 4 ≤ data.length by omega)
  obtain ⟨url, offset, hurl, hurlIn⟩ := ite_readOptional data 6 resp.updateUrl
  obtain ⟨desc, offset', hdesc, hdescIn⟩ := ite_readOptional data offset resp.updateDesc
  unfold decodeVersionCheckResponse
  simp only [if_neg hsize, herror, hversion, hurl, hdesc, Option.bind_eq_bind, Option.bind_some]
  refine ⟨_, rfl, fun resp' h => ?_⟩
  cases h
  exact List.forall_mem_cons.mpr ⟨hurlIn, List.forall_mem_singleton.mpr hdescIn⟩

/-- **When the optional tails stay in bounds.** A login response is decoded inside its
bytes, its user name left alone or set to a string that lies in them, if and only if it
is not seven bytes long; a security question response, if and only if it is not three
bytes long; a version check response always. -/
theorem optional_tails_inBounds (data : Bytes) :
    (InBounds decodeLoginResponse [LoginResponse.username] data ↔ data.length ≠ 7)
    ∧ (InBounds decodeSecurityQuestionResponse [SecurityQuestionResponse.question] data
      ↔ data.length ≠ 3)
    ∧ InBounds decodeVersionCheckResponse
      [VersionCheckResponse.updateUrl, VersionCheckResponse.updateDesc] data :=
  ⟨decodeLoginResponse_inBounds_iff data, decodeSecurityQuestionResponse_inBounds_iff data,
    decodeVersionCheckResponse_inBounds data⟩

/-- A success for user 1 that was cut in the middle of the name's length. -/
theorem cut_login_read_outside :
    decodeLoginResponse [0, 0, 0, 0, 0, 1, 0] ⟨.success, 0, []⟩ = none
    ∧ ¬ InBounds decodeLoginResponse [LoginResponse.username] [0, 0, 0, 0, 0, 1, 0] := by
  refine ⟨by decide, fun h => ?_⟩
  exact (decodeLoginResponse_inBounds_iff _).mp h rfl

end QQChat.Client
