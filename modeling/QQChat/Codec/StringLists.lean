import QQChat.Codec.Bounds

/-!
# The grammar of the string-list requests

Four requests are nothing but strings, each behind its 16-bit length. `Encodes` is
that grammar: the strings in order, and an arbitrary tail, which no decoder looks at.

The decoders are unrolled by hand, with a check before each length and each body and
an initial guard that is not the length of the shortest request. `readField_eq_some_iff`
is what one field's block accepts, and `bind_readField_iff` chains it, so each decoder is
compared with the grammar field by field; the guards turn out to follow from the
fields themselves.
-/

namespace QQChat

open BigEndian

/-- `data` is these strings, each behind its length, and a tail. -/
def Encodes (strs : List Bytes) (data : Bytes) : Prop :=
  (∀ str ∈ strs, str.length ≤ 65535) ∧ ∃ tail, data = strs.flatMap field ++ tail

theorem encodes_nil (data : Bytes) : Encodes [] data :=
  ⟨fun _ h => absurd h List.not_mem_nil, data, rfl⟩

/-- The first string is next in `data`, and the others follow it. -/
theorem encodes_cons {str data : Bytes} {strs : List Bytes} :
    Encodes (str :: strs) data ↔ str.length ≤ 65535
      ∧ ∃ rest, data = field str ++ rest ∧ Encodes strs rest := by
  constructor
  · rintro ⟨hlen, tail, rfl⟩
    refine ⟨hlen str List.mem_cons_self, strs.flatMap field ++ tail, ?_, ?_, tail, rfl⟩
    · rw [List.flatMap_cons, List.append_assoc]
    · exact fun s hs => hlen s (List.mem_cons_of_mem _ hs)
  · rintro ⟨hstr, _, rfl, hstrs, tail, rfl⟩
    refine ⟨List.forall_mem_cons.mpr ⟨hstr, hstrs⟩, tail, ?_⟩
    rw [List.flatMap_cons, List.append_assoc]

/-- The same by offsets, as the decoders see it. -/
theorem encodes_drop {str data : Bytes} {strs : List Bytes} {offset : Nat} :
    Encodes (str :: strs) (data.drop offset) ↔ str.length ≤ 65535
      ∧ (∃ rest, data.drop offset = field str ++ rest)
      ∧ Encodes strs (data.drop (offset + (field str).length)) := by
  rw [encodes_cons]
  constructor
  · rintro ⟨hstr, rest, hdrop, hrest⟩
    rw [drop_of_drop hdrop]
    exact ⟨hstr, ⟨rest, hdrop⟩, hrest⟩
  · rintro ⟨hstr, ⟨rest, hdrop⟩, hrest⟩
    rw [drop_of_drop hdrop] at hrest
    exact ⟨hstr, rest, hdrop, hrest⟩

/-- A grammar of `n` strings needs their `n` lengths. -/
theorem Encodes.length_le {strs : List Bytes} {data : Bytes} (h : Encodes strs data) :
    2 * strs.length ≤ data.length := by
  induction strs generalizing data with
  | nil => exact Nat.zero_le _
  | cons str strs ih =>
    obtain ⟨_, rest, rfl, hrest⟩ := encodes_cons.mp h
    have hle := ih hrest
    rw [List.length_append, length_field, List.length_cons]
    omega

namespace Server

/-! ## One field -/

/-- A field's block succeeds exactly on a length-prefixed string that is next. -/
theorem readField_eq_some_iff {data str : Bytes} {offset offset' : Nat} :
    readField data offset = some (some (str, offset'))
      ↔ str.length ≤ 65535 ∧ (∃ rest, data.drop offset = field str ++ rest)
        ∧ offset' = offset + (field str).length := by
  constructor
  · intro h
    unfold readField at h
    simp only [Option.bind_eq_bind, Option.bind_eq_some_iff] at h
    obtain ⟨len, hlen, h⟩ := h
    split at h
    · cases h
    next hroom =>
      have hle := Nat.le_of_not_lt hroom
      obtain ⟨hstr, hdrop⟩ := drop_eq_field hlen hle
      have hlt := len.toNat_lt
      rw [readString, if_pos hle] at h
      cases h
      refine ⟨by omega, ⟨_, hdrop⟩, ?_⟩
      rw [length_field, hstr, Nat.add_assoc]
  · rintro ⟨hstr, ⟨rest, hdrop⟩, rfl⟩
    exact readField_of_drop hstr hdrop

/-- What follows a field's block runs at the end of the field that was read. -/
theorem bind_readField_iff {β : Type} {data : Bytes} {offset : Nat} {result : β}
    {next : Bytes → Nat → Access (Option β)} :
    (do
      let some (str, offset') ← readField data offset | return none
      next str offset') = some (some result)
      ↔ ∃ str, str.length ≤ 65535 ∧ (∃ rest, data.drop offset = field str ++ rest)
        ∧ next str (offset + (field str).length) = some (some result) := by
  constructor
  · intro h
    obtain ⟨parsed, hread, h⟩ := Option.bind_eq_some_iff.mp h
    rcases parsed with _ | ⟨str, offset'⟩
    · cases h
    · obtain ⟨hstr, hdrop, rfl⟩ := readField_eq_some_iff.mp hread
      exact ⟨str, hstr, hdrop, h⟩
  · rintro ⟨str, hstr, ⟨rest, hdrop⟩, hnext⟩
    rw [readField_of_drop hstr hdrop]
    exact hnext

/-- The check before the length changes nothing about what is accepted. -/
theorem ite_readField_iff {β : Type} {data : Bytes} {offset : Nat} {result : β}
    {next : Bytes → Nat → Access (Option β)} :
    (do
      if offset + 2 > data.length then return none
      let some (str, offset') ← readField data offset | return none
      next str offset') = some (some result)
      ↔ ∃ str, str.length ≤ 65535 ∧ (∃ rest, data.drop offset = field str ++ rest)
        ∧ next str (offset + (field str).length) = some (some result) := by
  by_cases h : offset + 2 > data.length
  · rw [if_pos h]
    refine iff_of_false (fun hnone => by cases hnone) ?_
    rintro ⟨str, _, ⟨rest, hdrop⟩, _⟩
    exact absurd (room_of_drop hdrop) (Nat.not_le_of_gt h)
  · rw [if_neg h]
    exact bind_readField_iff

/-! ## The decoders -/

/-- The initial guard refuses nothing that the grammar allows. -/
theorem guard_iff {β : Type} {k : Nat} {data : Bytes} {strs : List Bytes}
    {decoded : Access (Option β)} {result : β} (hk : k ≤ 2 * strs.length)
    (h : decoded = some (some result) ↔ Encodes strs data) :
    (if data.length < k then some none else decoded) = some (some result)
      ↔ Encodes strs data := by
  by_cases hsize : data.length < k
  · rw [if_pos hsize]
    refine iff_of_false (fun hnone => by cases hnone) fun hencodes => ?_
    exact absurd (Nat.le_trans hk hencodes.length_le) (Nat.not_le_of_gt hsize)
  · rw [if_neg hsize]
    exact h

theorem decodeLoginRequest_iff {data : Bytes} {req : LoginRequest} :
    decodeLoginRequest data = some (some req) ↔ Encodes [req.username, req.password] data := by
  unfold decodeLoginRequest
  refine guard_iff (Nat.le_refl 4) ?_
  show _ ↔ Encodes _ (data.drop 0)
  rw [encodes_drop, encodes_drop]
  constructor
  · intro h
    obtain ⟨u, hu, hdrop0, h⟩ := bind_readField_iff.mp h
    obtain ⟨p, hp, hdrop1, h⟩ := ite_readField_iff.mp h
    cases h
    exact ⟨hu, hdrop0, hp, hdrop1, encodes_nil _⟩
  · rintro ⟨hu, hdrop0, hp, hdrop1, _⟩
    refine bind_readField_iff.mpr ⟨req.username, hu, hdrop0, ?_⟩
    exact ite_readField_iff.mpr ⟨req.password, hp, hdrop1, rfl⟩

theorem decodeRegisterRequest_iff {data : Bytes} {req : RegisterRequest} :
    decodeRegisterRequest data = some (some req)
      ↔ Encodes [req.username, req.password, req.securityQuestion, req.securityAnswer] data := by
  unfold decodeRegisterRequest
  -- The guard asks for six bytes; four lengths are eight.
  refine guard_iff (show 6 ≤ 2 * 4 by decide) ?_
  show _ ↔ Encodes _ (data.drop 0)
  rw [encodes_drop, encodes_drop, encodes_drop, encodes_drop]
  constructor
  · intro h
    obtain ⟨u, hu, hdrop0, h⟩ := bind_readField_iff.mp h
    obtain ⟨p, hp, hdrop1, h⟩ := ite_readField_iff.mp h
    obtain ⟨q, hq, hdrop2, h⟩ := ite_readField_iff.mp h
    obtain ⟨a, ha, hdrop3, h⟩ := ite_readField_iff.mp h
    cases h
    exact ⟨hu, hdrop0, hp, hdrop1, hq, hdrop2, ha, hdrop3, encodes_nil _⟩
  · rintro ⟨hu, hdrop0, hp, hdrop1, hq, hdrop2, ha, hdrop3, _⟩
    refine bind_readField_iff.mpr ⟨req.username, hu, hdrop0, ?_⟩
    refine ite_readField_iff.mpr ⟨req.password, hp, hdrop1, ?_⟩
    refine ite_readField_iff.mpr ⟨req.securityQuestion, hq, hdrop2, ?_⟩
    exact ite_readField_iff.mpr ⟨req.securityAnswer, ha, hdrop3, rfl⟩

theorem decodeSecurityQuestionRequest_iff {data : Bytes} {req : SecurityQuestionRequest} :
    decodeSecurityQuestionRequest data = some (some req) ↔ Encodes [req.username] data := by
  unfold decodeSecurityQuestionRequest
  refine guard_iff (Nat.le_refl 2) ?_
  show _ ↔ Encodes _ (data.drop 0)
  rw [encodes_drop]
  constructor
  · intro h
    obtain ⟨u, hu, hdrop0, h⟩ := bind_readField_iff.mp h
    cases h
    exact ⟨hu, hdrop0, encodes_nil _⟩
  · rintro ⟨hu, hdrop0, _⟩
    exact bind_readField_iff.mpr ⟨req.username, hu, hdrop0, rfl⟩

theorem decodeResetPasswordRequest_iff {data : Bytes} {req : ResetPasswordRequest} :
    decodeResetPasswordRequest data = some (some req)
      ↔ Encodes [req.username, req.newPassword, req.securityAnswer] data := by
  unfold decodeResetPasswordRequest
  refine guard_iff (Nat.le_refl 6) ?_
  show _ ↔ Encodes _ (data.drop 0)
  rw [encodes_drop, encodes_drop, encodes_drop]
  constructor
  · intro h
    obtain ⟨u, hu, hdrop0, h⟩ := bind_readField_iff.mp h
    obtain ⟨p, hp, hdrop1, h⟩ := ite_readField_iff.mp h
    obtain ⟨a, ha, hdrop2, h⟩ := ite_readField_iff.mp h
    cases h
    exact ⟨hu, hdrop0, hp, hdrop1, ha, hdrop2, encodes_nil _⟩
  · rintro ⟨hu, hdrop0, hp, hdrop1, ha, hdrop2, _⟩
    refine bind_readField_iff.mpr ⟨req.username, hu, hdrop0, ?_⟩
    refine ite_readField_iff.mpr ⟨req.newPassword, hp, hdrop1, ?_⟩
    exact ite_readField_iff.mpr ⟨req.securityAnswer, ha, hdrop2, rfl⟩

end Server

/-! ## Exactly the grammar -/

/-- The strings of a request, in the format's order. -/
def LoginRequest.fields (req : LoginRequest) : List Bytes := [req.username, req.password]

def RegisterRequest.fields (req : RegisterRequest) : List Bytes :=
  [req.username, req.password, req.securityQuestion, req.securityAnswer]

def SecurityQuestionRequest.fields (req : SecurityQuestionRequest) : List Bytes := [req.username]

def ResetPasswordRequest.fields (req : ResetPasswordRequest) : List Bytes :=
  [req.username, req.newPassword, req.securityAnswer]

/-- The fields of a request are `n` strings, any `n`, and they determine it. -/
structure AreFields {Req : Type} (fields : Req → List Bytes) (n : Nat) : Prop where
  length : ∀ req, (fields req).length = n
  all : ∀ strs : List Bytes, strs.length = n → ∃ req, fields req = strs
  inj : ∀ req req', fields req = fields req' → req = req'

theorem LoginRequest.areFields : AreFields LoginRequest.fields 2 where
  length _ := rfl
  all
    | [u, p], _ => ⟨⟨u, p⟩, rfl⟩
  inj
    | ⟨_, _⟩, ⟨_, _⟩, rfl => rfl

theorem RegisterRequest.areFields : AreFields RegisterRequest.fields 4 where
  length _ := rfl
  all
    | [u, p, q, a], _ => ⟨⟨u, p, q, a⟩, rfl⟩
  inj
    | ⟨_, _, _, _⟩, ⟨_, _, _, _⟩, rfl => rfl

theorem SecurityQuestionRequest.areFields : AreFields SecurityQuestionRequest.fields 1 where
  length _ := rfl
  all
    | [u], _ => ⟨⟨u⟩, rfl⟩
  inj
    | ⟨_⟩, ⟨_⟩, rfl => rfl

theorem ResetPasswordRequest.areFields : AreFields ResetPasswordRequest.fields 3 where
  length _ := rfl
  all
    | [u, p, a], _ => ⟨⟨u, p, a⟩, rfl⟩
  inj
    | ⟨_, _, _⟩, ⟨_, _, _⟩, rfl => rfl

/-- A decoder of `n` strings is total on every vector, and is its grammar: it accepts
the vectors that hold `n` strings and a tail, as the request of these strings. -/
def ExactlyDecodes {Req : Type} (decode : Bytes → Access (Option Req))
    (fields : Req → List Bytes) (n : Nat) : Prop :=
  ∀ data, (decode data).isSome
    ∧ ((∃ req, decode data = some (some req)) ↔ ∃ strs, strs.length = n ∧ Encodes strs data)
    ∧ ∀ req, decode data = some (some req) ↔ Encodes (fields req) data

/-- A decoder that is compared with the grammar field by field accepts as many strings
as its request has. -/
theorem exactlyDecodes {Req : Type} {decode : Bytes → Access (Option Req)}
    {fields : Req → List Bytes} {n : Nat} (hfields : AreFields fields n)
    (hsome : ∀ data, (decode data).isSome)
    (hiff : ∀ {data req}, decode data = some (some req) ↔ Encodes (fields req) data) :
    ExactlyDecodes decode fields n := by
  refine fun data => ⟨hsome data, ⟨?_, ?_⟩, fun req => hiff⟩
  · rintro ⟨req, h⟩
    exact ⟨fields req, hfields.length req, hiff.mp h⟩
  · rintro ⟨strs, hstrs, h⟩
    obtain ⟨req, rfl⟩ := hfields.all strs hstrs
    exact ⟨req, hiff.mpr h⟩

/-- **The string-list decoders accept exactly their grammar**: two strings for a login,
four for a registration, one for a security question, three for a reset, and an
arbitrary tail. The fields are these strings, in order, and whether or not a vector is
accepted, nothing outside it is read. -/
theorem string_lists_exact :
    ExactlyDecodes Server.decodeLoginRequest LoginRequest.fields 2
    ∧ ExactlyDecodes Server.decodeRegisterRequest RegisterRequest.fields 4
    ∧ ExactlyDecodes Server.decodeSecurityQuestionRequest SecurityQuestionRequest.fields 1
    ∧ ExactlyDecodes Server.decodeResetPasswordRequest ResetPasswordRequest.fields 3 :=
  ⟨exactlyDecodes LoginRequest.areFields Server.decodeLoginRequest_isSome
      Server.decodeLoginRequest_iff,
    exactlyDecodes RegisterRequest.areFields Server.decodeRegisterRequest_isSome
      Server.decodeRegisterRequest_iff,
    exactlyDecodes SecurityQuestionRequest.areFields Server.decodeSecurityQuestionRequest_isSome
      Server.decodeSecurityQuestionRequest_iff,
    exactlyDecodes ResetPasswordRequest.areFields Server.decodeResetPasswordRequest_isSome
      Server.decodeResetPasswordRequest_iff⟩

/-- A tail of one byte is ignored, and one byte too few is refused. -/
example : Server.decodeLoginRequest [0, 1, 97, 0, 1, 98, 255] = some (some ⟨[97], [98]⟩)
    ∧ Server.decodeLoginRequest [0, 1, 97, 0, 1] = some none := by
  decide

end QQChat
