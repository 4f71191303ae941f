import QQChat.Codec.StringLists

/-!
# Strings longer than their length field

`write_string` casts the length to `uint16_t` and appends the whole string. Neither
the encoders nor the JNI layer above them bound it, so for a string of 65536 bytes or
more the server takes the first `length % 65536` bytes for the string and reads on in
the rest of it: those bytes are the lengths and contents of the fields that follow.

Whether such a request is accepted, as something else than the client was given,
depends on these bytes alone. `Intact` is the condition, and `faithful_iff` that it is
exact: only the first over-long string counts, since everything after it is shifted.
-/

namespace QQChat

open BigEndian

/-- What a reader who trusts the length of `str` finds behind it. -/
def overflow (str : Bytes) (later : List Bytes) : Bytes :=
  str.drop (str.length % 2 ^ 16) ++ later.flatMap field

/-- Every string fits its length field, or what spills over from the first that does
not cannot be read as the strings that follow it. -/
def Intact : List Bytes → Prop
  | [] => True
  | str :: later =>
    if str.length ≤ 65535 then Intact later
    else ¬ ∃ strs, strs.length = later.length ∧ Encodes strs (overflow str later)

/-- A field that was written is read up to its length modulo 65536. -/
theorem encodes_field {str' str rest : Bytes} {strs : List Bytes} :
    Encodes (str' :: strs) (field str ++ rest)
      ↔ str' = str.take (str.length % 2 ^ 16)
        ∧ Encodes strs (str.drop (str.length % 2 ^ 16) ++ rest) := by
  have hmod : str.length % 2 ^ 16 ≤ str.length := Nat.mod_le _ _
  have hlt : str.length % 2 ^ 16 < 2 ^ 16 := Nat.mod_lt _ (by decide)
  rw [encodes_cons]
  constructor
  · rintro ⟨hstr, tail, heq, htail⟩
    rw [field, field, List.append_assoc, List.append_assoc] at heq
    obtain ⟨hlen, hbody⟩ := List.append_inj heq (by rw [length_toBytes, length_toBytes])
    have hnum := congrArg ofBytes hlen
    rw [ofBytes_toBytes, ofBytes_toBytes, show 256 ^ 2 = 2 ^ 16 from rfl, Nat.mod_mod, Nat.mod_mod,
      Nat.mod_eq_of_lt (show str'.length < 2 ^ 16 by omega)] at hnum
    -- The string's own bytes are split where its length says.
    rw [← List.take_append_drop (str.length % 2 ^ 16) str, List.append_assoc] at hbody
    obtain ⟨hhead, hrest⟩ := List.append_inj hbody (by rw [List.length_take]; omega)
    rw [hrest]
    exact ⟨hhead.symm, htail⟩
  · rintro ⟨rfl, htail⟩
    have hlen : (str.take (str.length % 2 ^ 16)).length = str.length % 2 ^ 16 := by
      rw [List.length_take]
      omega
    refine ⟨by omega, str.drop (str.length % 2 ^ 16) ++ rest, ?_, htail⟩
    rw [field, field, hlen, Nat.mod_mod, List.append_assoc, List.append_assoc,
      ← List.append_assoc (str.take _), List.take_append_drop]

/-- A field whose length fits is read whole. -/
theorem encodes_field_of_le {str' str rest : Bytes} {strs : List Bytes}
    (h : str.length ≤ 65535) :
    Encodes (str' :: strs) (field str ++ rest) ↔ str' = str ∧ Encodes strs rest := by
  have hmod : str.length % 2 ^ 16 = str.length := Nat.mod_eq_of_lt (by omega)
  rw [encodes_field, hmod, List.take_length, List.drop_length, List.nil_append]

/-- **What was written is read back, or nothing is**, exactly for `Intact` strings. -/
theorem faithful_iff (strs : List Bytes) :
    (∀ strs', strs'.length = strs.length → Encodes strs' (strs.flatMap field) → strs' = strs)
      ↔ Intact strs := by
  induction strs with
  | nil =>
    refine iff_of_true (fun strs' hlen _ => List.length_eq_zero_iff.mp hlen) trivial
  | cons str later ih =>
    rw [Intact]
    split
    next hstr =>
      rw [← ih]
      constructor
      · intro h strs' hlen hencodes
        have hcons := h (str :: strs') (by rw [List.length_cons, List.length_cons, hlen])
          ((encodes_field_of_le hstr).mpr ⟨rfl, hencodes⟩)
        exact (List.cons.inj hcons).2
      · rintro h (_ | ⟨str', strs'⟩) hlen hencodes
        · cases hlen
        · obtain ⟨rfl, hlater⟩ := (encodes_field_of_le hstr).mp hencodes
          rw [h strs' (Nat.succ.inj hlen) hlater]
    next hstr =>
      constructor
      · rintro h ⟨strs', hlen, hencodes⟩
        have hcons := h (str.take (str.length % 2 ^ 16) :: strs')
          (by rw [List.length_cons, List.length_cons, hlen]) (encodes_field.mpr ⟨rfl, hencodes⟩)
        -- The prefix that was read is shorter than the string.
        have hshort := congrArg List.length (List.cons.inj hcons).1
        have hlt : str.length % 2 ^ 16 < 2 ^ 16 := Nat.mod_lt _ (by decide)
        rw [List.length_take] at hshort
        omega
      · rintro h (_ | ⟨str', strs'⟩) hlen hencodes
        · cases hlen
        · obtain ⟨_, hlater⟩ := encodes_field.mp hencodes
          exact absurd ⟨strs', Nat.succ.inj hlen, hlater⟩ h

/-! ## Few fields -/

/-- Enough bytes hold a string, whatever they are. -/
theorem exists_encodes_one {data : Bytes} (h : 65537 ≤ data.length) :
    ∃ str, Encodes [str] data := by
  obtain ⟨len, hlen⟩ := readUint16_of_le (show 0 + 2 ≤ data.length by omega)
  have hlt := len.toNat_lt
  obtain ⟨hstr, hdrop⟩ := drop_eq_field hlen (by omega)
  exact ⟨_, encodes_cons.mpr ⟨by omega, _, hdrop, encodes_nil _⟩⟩

theorem intact_cons_of_le {str : Bytes} {later : List Bytes} (h : str.length ≤ 65535) :
    Intact (str :: later) ↔ Intact later := by
  rw [Intact, if_pos h]

theorem intact_of_le {strs : List Bytes} (h : ∀ str ∈ strs, str.length ≤ 65535) :
    Intact strs := by
  induction strs with
  | nil => trivial
  | cons str later ih =>
    rw [List.forall_mem_cons] at h
    exact (intact_cons_of_le h.1).mpr (ih h.2)

/-- A string that is over-long and last is always cut. -/
theorem intact_one {str : Bytes} : Intact [str] ↔ str.length ≤ 65535 := by
  rw [Intact]
  split
  next h => exact iff_of_true trivial h
  next h => exact iff_of_false (fun hne => hne ⟨[], rfl, encodes_nil _⟩) h

/-- One that is over-long and last but one always spills a string. -/
theorem intact_two {str str' : Bytes} :
    Intact [str, str'] ↔ str.length ≤ 65535 ∧ str'.length ≤ 65535 := by
  by_cases h : str.length ≤ 65535
  · rw [intact_cons_of_le h, intact_one]
    exact (and_iff_right h).symm
  · have hmod : str.length % 2 ^ 16 + 2 ^ 16 ≤ str.length := by omega
    have hlen : 65537 ≤ (overflow str [str']).length := by
      simp only [overflow, List.length_append, List.length_drop, List.flatMap_cons,
        List.flatMap_nil, length_field, List.length_nil]
      omega
    obtain ⟨spilled, hspilled⟩ := exists_encodes_one hlen
    rw [Intact, if_neg h]
    exact iff_of_false (fun hne => hne ⟨[spilled], rfl, hspilled⟩) fun hand => h hand.1

/-! ## The four requests -/

/-- A decoder that is its grammar returns the request that was written, or nothing,
exactly for `Intact` strings. -/
theorem decoded_iff {Req : Type} {decode : Bytes → Access (Option Req)}
    {fields : Req → List Bytes} {n : Nat} (hfields : AreFields fields n)
    (hiff : ∀ {data req}, decode data = some (some req) ↔ Encodes (fields req) data) (req : Req) :
    (∀ req', decode ((fields req).flatMap field) = some (some req') → req' = req)
      ↔ Intact (fields req) := by
  rw [← faithful_iff]
  constructor
  · intro h strs hstrs hencodes
    obtain ⟨req', rfl⟩ := hfields.all strs (hstrs.trans (hfields.length req))
    rw [h req' (hiff.mpr hencodes)]
  · intro h req' hdecode
    have hlen := (hfields.length req').trans (hfields.length req).symm
    exact hfields.inj req' req (h (fields req') hlen (hiff.mp hdecode))

theorem body_login_eq (req : LoginRequest) :
    (Client.encodeLoginRequest req.username req.password).drop HEADER_SIZE
      = req.fields.flatMap field := by
  rw [LoginRequest.fields, List.flatMap_cons, List.flatMap_cons, List.flatMap_nil, List.append_nil]
  exact body_login req

theorem body_register_eq (req : RegisterRequest) :
    (Client.encodeRegisterRequest req.username req.password req.securityQuestion
      req.securityAnswer).drop HEADER_SIZE = req.fields.flatMap field := by
  simp only [RegisterRequest.fields, List.flatMap_cons, List.flatMap_nil, List.append_nil]
  exact body_register req

theorem body_securityQuestion_eq (req : SecurityQuestionRequest) :
    (Client.encodeSecurityQuestionRequest req.username).drop HEADER_SIZE
      = req.fields.flatMap field := by
  rw [SecurityQuestionRequest.fields, List.flatMap_cons, List.flatMap_nil, List.append_nil]
  exact body_securityQuestion req

theorem body_resetPassword_eq (req : ResetPasswordRequest) :
    (Client.encodeResetPasswordRequest req.username req.newPassword req.securityAnswer).drop
      HEADER_SIZE = req.fields.flatMap field := by
  simp only [ResetPasswordRequest.fields, List.flatMap_cons, List.flatMap_nil, List.append_nil]
  exact body_resetPassword req

/-- **When a request is not corrupted on the way.** The payload that the client's
encoder built of some strings is accepted by the server's decoder only as these
strings: for a login or a security question if and only if every string fits its
length field, for a registration or a reset if and only if they are `Intact`. -/
theorem fields_uncorrupted
    (username password newPassword securityQuestion securityAnswer : Bytes) :
    ((∀ req, Server.decodeLoginRequest
          ((Client.encodeLoginRequest username password).drop HEADER_SIZE) = some (some req) →
        req = ⟨username, password⟩)
      ↔ username.length ≤ 65535 ∧ password.length ≤ 65535)
    ∧ ((∀ req, Server.decodeRegisterRequest
          ((Client.encodeRegisterRequest username password securityQuestion securityAnswer).drop
            HEADER_SIZE) = some (some req) →
        req = ⟨username, password, securityQuestion, securityAnswer⟩)
      ↔ Intact [username, password, securityQuestion, securityAnswer])
    ∧ ((∀ req, Server.decodeSecurityQuestionRequest
          ((Client.encodeSecurityQuestionRequest username).drop HEADER_SIZE) = some (some req) →
        req = ⟨username⟩)
      ↔ username.length ≤ 65535)
    ∧ ((∀ req, Server.decodeResetPasswordRequest
          ((Client.encodeResetPasswordRequest username newPassword securityAnswer).drop
            HEADER_SIZE) = some (some req) →
        req = ⟨username, newPassword, securityAnswer⟩)
      ↔ Intact [username, newPassword, securityAnswer]) := by
  refine ⟨?_, ?_, ?_, ?_⟩
  · rw [← intact_two, body_login_eq ⟨username, password⟩]
    exact decoded_iff LoginRequest.areFields Server.decodeLoginRequest_iff ⟨username, password⟩
  · rw [body_register_eq ⟨username, password, securityQuestion, securityAnswer⟩]
    exact decoded_iff RegisterRequest.areFields Server.decodeRegisterRequest_iff
      ⟨username, password, securityQuestion, securityAnswer⟩
  · rw [← intact_one, body_securityQuestion_eq ⟨username⟩]
    exact decoded_iff SecurityQuestionRequest.areFields
      Server.decodeSecurityQuestionRequest_iff ⟨username⟩
  · rw [body_resetPassword_eq ⟨username, newPassword, securityAnswer⟩]
    exact decoded_iff ResetPasswordRequest.areFields Server.decodeResetPasswordRequest_iff
      ⟨username, newPassword, securityAnswer⟩

/-- Two zero bytes are an empty string. -/
theorem encodes_zeros (n : Nat) (rest : Bytes) :
    Encodes [[]] (List.replicate (n + 2) 0 ++ rest) :=
  encodes_cons.mpr ⟨Nat.zero_le _, List.replicate n 0 ++ rest, rfl, encodes_nil _⟩

/-- A user name of 65536 zero bytes has the length zero on the wire, and is its own
empty password. -/
theorem overlong_username_accepted :
    Server.decodeLoginRequest
        ((Client.encodeLoginRequest (List.replicate 65536 0) [112]).drop HEADER_SIZE)
      = some (some ⟨[], []⟩)
    ∧ ¬ ∀ (username password : Bytes) (req : LoginRequest),
      Server.decodeLoginRequest
          ((Client.encodeLoginRequest username password).drop HEADER_SIZE) = some (some req) →
        req = ⟨username, password⟩ := by
  have hbody := body_login_eq ⟨List.replicate 65536 0, [112]⟩
  have hdecode : Server.decodeLoginRequest
      ((Client.encodeLoginRequest (List.replicate 65536 0) [112]).drop HEADER_SIZE)
        = some (some ⟨[], []⟩) := by
    rw [hbody, Server.decodeLoginRequest_iff]
    refine encodes_field.mpr ?_
    rw [List.length_replicate, show 65536 % 2 ^ 16 = 0 from rfl, List.take_zero, List.drop_zero]
    exact ⟨rfl, encodes_zeros 65534 _⟩
  refine ⟨hdecode, fun h => ?_⟩
  cases congrArg LoginRequest.password (h _ _ _ hdecode)

end QQChat
