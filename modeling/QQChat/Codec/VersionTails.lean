import QQChat.Codec.OptionalTails

/-!
# The two tails of a version check response

`decode_version_check_response` reads the url and then the description, each with its own
checks. When the url is cut off, its block has moved the offset past the two bytes of its
length, and nothing stops the second block from going on there: what is left of the url is
read as a length and a description (`url_read_as_description`). The friend list's decoder,
next to it, breaks off at the first field that does not fit.

Mirroring notes:
- `decodeVersionCheckTraced` is `decodeVersionCheckResponse` with one more result: the
  bytes that its second block has read, for the length and for what it announces. They
  end at the offset that `readOptional` returns.
-/

namespace QQChat.Client

/-! ## What the bytes declare -/

/-- The url is in `data`, its length and all of its bytes. -/
def UrlFits (data : Bytes) : Prop :=
  8 + lengthAt data 6 ≤ data.length

instance (data : Bytes) : Decidable (UrlFits data) :=
  inferInstanceAs (Decidable (_ ≤ _))

/-- The byte at `i` is one of those that the url's length covers. -/
def InUrl (data : Bytes) (i : Nat) : Prop :=
  i < data.length ∧ 8 ≤ i ∧ i < 8 + lengthAt data 6

/-- Consecutive bytes, up to one that is not among them. -/
structure Span where
  start : Nat
  stop : Nat

def Span.Covers (span : Span) (i : Nat) : Prop :=
  span.start ≤ i ∧ i < span.stop

/-! ## The decoder, traced -/

/-- `decodeVersionCheckResponse`, and the bytes that it reads the description from. -/
def decodeVersionCheckTraced (data : Bytes) (resp : VersionCheckResponse) :
    Access (Option (VersionCheckResponse × Span)) := do
  if data.length < 6 then return none
  let errorCode ← readUint16 data 0
  let serverVersion ← readInt32 data 2
  let (updateUrl, offset) ←
    if 6 + 2 ≤ data.length then readOptional data 6 resp.updateUrl else pure (resp.updateUrl, 6)
  let (updateDesc, stop) ←
    if offset + 2 ≤ data.length then readOptional data offset resp.updateDesc
    else pure (resp.updateDesc, offset)
  return some ({ errorCode := ⟨errorCode⟩, serverVersion, updateUrl, updateDesc },
    { start := offset, stop })

/-- Past the initial guard, the two blocks follow each other, whatever the first has found. -/
theorem decodeVersionCheckTraced_of_le {data : Bytes} (h : 6 ≤ data.length) :
    ∃ (errorCode : UInt16) (serverVersion : Int32), ∀ resp : VersionCheckResponse,
      decodeVersionCheckTraced data resp = some (some (
        { errorCode := ⟨errorCode⟩
          serverVersion
          updateUrl := (tailAt data 6 resp.updateUrl).1
          updateDesc := (tailAt data (tailAt data 6 resp.updateUrl).2 resp.updateDesc).1 },
        { start := (tailAt data 6 resp.updateUrl).2
          stop := (tailAt data (tailAt data 6 resp.updateUrl).2 resp.updateDesc).2 })) := by
  obtain ⟨errorCode, herror⟩ := readUint16_of_le (show 0 + 2 ≤ data.length by omega)
  obtain ⟨serverVersion, hversion, _⟩ := readInt32_of_le (show 2 + 4 ≤ data.length by omega)
  refine ⟨errorCode, serverVersion, fun resp => ?_⟩
  unfold decodeVersionCheckTraced
  simp only [if_neg (Nat.not_lt.mpr h), herror, hversion, Option.bind_eq_bind, Option.bind_some,
    bind_tail]
  rfl

/-- What the decoder itself returns. -/
theorem decodeVersionCheckTraced_fst (data : Bytes) (resp : VersionCheckResponse) :
    (decodeVersionCheckTraced data resp).map (Option.map Prod.fst)
      = decodeVersionCheckResponse data resp := by
  unfold decodeVersionCheckTraced decodeVersionCheckResponse
  by_cases hsize : data.length < 6
  · rw [if_pos hsize, if_pos hsize]
    rfl
  obtain ⟨errorCode, herror⟩ := readUint16_of_le (show 0 + 2 ≤ data.length by omega)
  obtain ⟨serverVersion, hversion, _⟩ := readInt32_of_le (show 2 + 4 ≤ data.length by omega)
  simp only [if_neg hsize, herror, hversion, Option.bind_eq_bind, Option.bind_some, bind_tail]
  rfl

/-! ## One block -/

/-- A block that begins reads at least a length. -/
theorem le_tailAt {data : Bytes} {offset : Nat} (h : offset + 2 ≤ data.length) (old : Bytes) :
    offset + 2 ≤ (tailAt data offset old).2 := by
  by_cases hfits : offset + 2 + lengthAt data offset ≤ data.length
  · rw [tailAt_of_fits hfits]
    exact Nat.le_add_right _ _
  · exact Nat.le_of_eq (congrArg Prod.snd (tailAt_of_cut h (Nat.lt_of_not_le hfits) old)).symm

/-- It sets the field to the string that stands at its offset, or not at all. -/
theorem tailAt_ne_nil {data : Bytes} {offset : Nat} (h : (tailAt data offset []).1 ≠ []) :
    (tailAt data offset []).1.length ≤ 65535
      ∧ ∃ rest, data.drop offset = field (tailAt data offset []).1 ++ rest :=
  (tailAt_fst data offset []).resolve_left h

/-! ## When the url stays out of the description -/

/-- Whenever the decoder, from empty strings, returns `true`: a description comes from
behind a url that fits, as the string that stands there; and the bytes that the second
block reads are none of the url's. -/
def NoBleed (data : Bytes) : Prop :=
  ∀ resp resp' : VersionCheckResponse, resp.updateUrl = [] → resp.updateDesc = [] →
    decodeVersionCheckResponse data resp = some (some resp') →
      (resp'.updateDesc ≠ [] → UrlFits data ∧ resp'.updateDesc.length ≤ 65535
        ∧ ∃ rest, data.drop (8 + lengthAt data 6) = field resp'.updateDesc ++ rest)
      ∧ ∃ span, decodeVersionCheckTraced data resp = some (some (resp', span))
        ∧ ∀ i, InUrl data i → ¬ span.Covers i

/-- The decoder, from empty strings, by its two blocks. -/
theorem noBleed_iff_tails {data : Bytes} (h : 6 ≤ data.length) : NoBleed data ↔
    ((tailAt data (tailAt data 6 []).2 []).1 ≠ [] →
      UrlFits data ∧ (tailAt data (tailAt data 6 []).2 []).1.length ≤ 65535
        ∧ ∃ rest, data.drop (8 + lengthAt data 6)
          = field (tailAt data (tailAt data 6 []).2 []).1 ++ rest)
    ∧ ∀ i, InUrl data i →
      ¬ ((tailAt data 6 []).2 ≤ i ∧ i < (tailAt data (tailAt data 6 []).2 []).2) := by
  obtain ⟨errorCode, serverVersion, htraced⟩ := decodeVersionCheckTraced_of_le h
  unfold NoBleed
  constructor
  · intro hno
    have hresp := htraced ⟨.success, 0, [], []⟩
    have hdecode := decodeVersionCheckTraced_fst data ⟨.success, 0, [], []⟩
    rw [hresp] at hdecode
    obtain ⟨hdesc, span, hspan, hbytes⟩ := hno _ _ rfl rfl hdecode.symm
    rw [hresp] at hspan
    cases hspan
    exact ⟨hdesc, hbytes⟩
  · rintro ⟨hdesc, hbytes⟩ resp resp' hurlNil hdescNil hdecode
    have hresp := htraced resp
    rw [hurlNil, hdescNil] at hresp
    rw [← decodeVersionCheckTraced_fst, hresp] at hdecode
    cases hdecode
    exact ⟨hdesc, _, hresp, hbytes⟩

/-- **When the fields do not bleed**: exactly if the vector ends before a second length
could be read, or the url that it declares is all there. -/
theorem version_tails_noBleed_iff (data : Bytes) :
    NoBleed data ↔ data.length < 10 ∨ UrlFits data := by
  by_cases hsize : data.length < 6
  · refine iff_of_true ?_ (Or.inl (by omega))
    intro resp resp' _ _ hdecode
    have hnone : decodeVersionCheckResponse data resp = some none := if_pos hsize
    rw [hnone] at hdecode
    cases hdecode
  rw [noBleed_iff_tails (Nat.le_of_not_lt hsize)]
  by_cases hfits : UrlFits data
  · refine iff_of_true ?_ (Or.inr hfits)
    rw [tailAt_of_fits (show 6 + 2 + lengthAt data 6 ≤ data.length from hfits)]
    refine ⟨fun hdesc => ⟨hfits, tailAt_ne_nil hdesc⟩, ?_⟩
    rintro i ⟨_, _, hlt⟩ ⟨hle, _⟩
    have hle : 8 + lengthAt data 6 ≤ i := hle
    omega
  · have hcut : data.length < 6 + 2 + lengthAt data 6 := Nat.lt_of_not_le hfits
    by_cases hlength : 6 + 2 ≤ data.length
    · rw [tailAt_of_cut hlength hcut]
      by_cases hlong : 8 + 2 ≤ data.length
      · -- The two bytes after the url's length belong to it, and are read as another.
        refine iff_of_false (fun hno => ?_) (not_or_intro (by omega) hfits)
        have hstop : 8 < (tailAt data 8 []).2 := Nat.lt_of_lt_of_le (by decide) (le_tailAt hlong [])
        exact hno.2 8 ⟨by omega, Nat.le_refl 8, by omega⟩ ⟨Nat.le_refl 8, hstop⟩
      · refine iff_of_true ?_ (Or.inl (by omega))
        rw [tailAt_of_lt (Nat.lt_of_not_le hlong)]
        exact ⟨fun hdesc => absurd rfl hdesc, fun i _ hcovers => absurd hcovers.2 (by omega)⟩
    · refine iff_of_true ?_ (Or.inl (by omega))
      have hshort : data.length < 6 + 2 := Nat.lt_of_not_le hlength
      rw [tailAt_of_lt hshort, tailAt_of_lt hshort]
      exact ⟨fun hdesc => absurd rfl hdesc, fun i hi => absurd hi.2.1 (by have := hi.1; omega)⟩

/-- A url of nine bytes, three of which have arrived: they are read as the description
`"A"`. -/
theorem url_read_as_description :
    decodeVersionCheckResponse [0, 0, 0, 0, 0, 2, 0, 9, 0, 1, 65] ⟨.success, 0, [], []⟩
      = some (some ⟨.success, 2, [], [65]⟩)
    ∧ ¬ NoBleed [0, 0, 0, 0, 0, 2, 0, 9, 0, 1, 65] := by
  have hdecode : decodeVersionCheckResponse [0, 0, 0, 0, 0, 2, 0, 9, 0, 1, 65]
      ⟨.success, 0, [], []⟩ = some (some ⟨.success, 2, [], [65]⟩) := by decide
  refine ⟨hdecode, fun hno => ?_⟩
  obtain ⟨hfits, _⟩ := (hno _ _ rfl rfl hdecode).1 (List.cons_ne_nil 65 [])
  exact absurd hfits (by decide)

end QQChat.Client
