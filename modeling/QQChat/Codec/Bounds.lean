import QQChat.Codec.Requests

/-!
# The request decoders on arbitrary bytes

Whatever a packet holds, the string-list decoders stay inside it: each length is
checked before it is used, in 64 bits. `decode_message_request` is not among
them, since its 32-bit sum wraps; on a body that the client built it stays inside
all the same (`decodeRequest_body_isSome`).
-/

namespace QQChat.Server

/-- A field whose length is there is read in bounds, and ends in bounds. -/
theorem readField_of_le {data : Bytes} {offset : Nat} (h : offset + 2 ≤ data.length) :
    readField data offset = some none
      ∨ ∃ str offset', readField data offset = some (some (str, offset'))
          ∧ offset' ≤ data.length := by
  obtain ⟨len, hlen⟩ := readUint16_of_le h
  unfold readField
  simp only [hlen, Option.bind_eq_bind, Option.bind_some]
  by_cases hroom : offset + 2 + len.toNat > data.length
  · rw [if_pos hroom]
    exact Or.inl rfl
  · rw [if_neg hroom]
    have hstr : readString data (offset + 2) len.toNat
        = some ((data.drop (offset + 2)).take len.toNat) := if_pos (Nat.le_of_not_lt hroom)
    rw [hstr]
    exact Or.inr ⟨_, _, rfl, Nat.le_of_not_lt hroom⟩

/-- The block around `readField`: what follows a field is reached only with the
offset in bounds. -/
theorem bind_readField_isSome {β : Type} {data : Bytes} {offset : Nat}
    (h : offset + 2 ≤ data.length) {next : Bytes → Nat → Access (Option β)}
    (hnext : ∀ str offset', offset' ≤ data.length → (next str offset').isSome) :
    (do
      let some (str, offset') ← readField data offset | return none
      next str offset').isSome := by
  rcases readField_of_le h with hread | ⟨str, offset', hread, hle⟩
  · rw [hread]
    rfl
  · rw [hread]
    exact hnext str offset' hle

/-- The same with the check that precedes every field but the first. -/
theorem ite_readField_isSome {β : Type} {data : Bytes} {offset : Nat}
    {next : Bytes → Nat → Access (Option β)}
    (hnext : ∀ str offset', offset' ≤ data.length → (next str offset').isSome) :
    (do
      if offset + 2 > data.length then return none
      let some (str, offset') ← readField data offset | return none
      next str offset').isSome := by
  by_cases h : offset + 2 > data.length
  · rw [if_pos h]
    rfl
  · rw [if_neg h]
    exact bind_readField_isSome (Nat.le_of_not_lt h) hnext

theorem decodeLoginRequest_isSome (data : Bytes) : (decodeLoginRequest data).isSome := by
  unfold decodeLoginRequest
  split
  · rfl
  next hsize =>
    refine bind_readField_isSome (by omega) fun _ _ _ => ?_
    exact ite_readField_isSome fun _ _ _ => rfl

theorem decodeRegisterRequest_isSome (data : Bytes) : (decodeRegisterRequest data).isSome := by
  unfold decodeRegisterRequest
  split
  · rfl
  next hsize =>
    refine bind_readField_isSome (by omega) fun _ _ _ => ?_
    refine ite_readField_isSome fun _ _ _ => ?_
    refine ite_readField_isSome fun _ _ _ => ?_
    exact ite_readField_isSome fun _ _ _ => rfl

theorem decodeSecurityQuestionRequest_isSome (data : Bytes) :
    (decodeSecurityQuestionRequest data).isSome := by
  unfold decodeSecurityQuestionRequest
  split
  · rfl
  next hsize => exact bind_readField_isSome (by omega) fun _ _ _ => rfl

theorem decodeResetPasswordRequest_isSome (data : Bytes) :
    (decodeResetPasswordRequest data).isSome := by
  unfold decodeResetPasswordRequest
  split
  · rfl
  next hsize =>
    refine bind_readField_isSome (by omega) fun _ _ _ => ?_
    refine ite_readField_isSome fun _ _ _ => ?_
    exact ite_readField_isSome fun _ _ _ => rfl

/-- A body shorter than a mebibyte that the client framed is decoded inside it,
strings of any length included. -/
theorem decodeRequest_body_isSome {r : Request} (h : r.body.length < 2 ^ 20) (version : UInt8) :
    (decodeRequest ⟨version, r.command, r.body⟩).isSome := by
  cases r with
  | login req =>
    show ((decodeLoginRequest _).map _).isSome
    rw [Option.isSome_map]
    exact decodeLoginRequest_isSome _
  | message req =>
    -- The one decoder that trusts the length it reads: the frame is too short to fool it.
    rw [body_message] at h
    simp only [List.length_append, BigEndian.length_toBytes] at h
    have hfits : (Request.message req).Fits := by
      show req.content.length < 2 ^ 32 - 8
      omega
    rw [decodeRequest_body hfits]
    rfl
  | friendList => rfl
  | addFriend friendId =>
    rw [decodeRequest_body (r := .addFriend friendId) trivial]
    rfl
  | register req =>
    show ((decodeRegisterRequest _).map _).isSome
    rw [Option.isSome_map]
    exact decodeRegisterRequest_isSome _
  | securityQuestion req =>
    show ((decodeSecurityQuestionRequest _).map _).isSome
    rw [Option.isSome_map]
    exact decodeSecurityQuestionRequest_isSome _
  | resetPassword req =>
    show ((decodeResetPasswordRequest _).map _).isSome
    rw [Option.isSome_map]
    exact decodeResetPasswordRequest_isSome _
  | versionCheck req =>
    rw [decodeRequest_body (r := .versionCheck req) trivial]
    rfl

end QQChat.Server
