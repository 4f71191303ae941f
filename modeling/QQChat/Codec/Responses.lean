import QQChat.Codec.Server
import QQChat.Codec.FriendList

/-!
# Responses, from the server's encoders to the client's decoders

The converse direction of `Codec.Requests`: each response the server encodes
and the client has a decoder for comes back field by field. The decoders with
optional tails are run on any out-parameter, since on a complete response they
overwrite every field; `decode_friend_list_response` appends to whatever the
vector holds.

The friend list is the one format of unbounded shape. What the client's loop reads of
any bytes is in `Codec.FriendList`; here these are the entries that the server has
written, and nothing is behind them.
-/

namespace QQChat

open BigEndian

/-! ## What the server writes -/

namespace Server

theorem encodeLoginResponse_eq (resp : LoginResponse) :
    encodeLoginResponse resp = toBytes 2 resp.errorCode.toUInt16.toNat
      ++ (toBytes 4 resp.userId.toUInt32.toNat ++ field resp.username) := by
  simp only [encodeLoginResponse, writeUint16_eq, writeInt32_eq, writeString_eq,
    List.append_assoc, List.nil_append]

theorem encodeMessageNotify_eq (notify : MessageNotify) :
    encodeMessageNotify notify = toBytes 4 notify.fromId.toUInt32.toNat
      ++ (toBytes 4 (notify.content.length % 2 ^ 32)
        ++ (notify.content ++ toBytes 8 notify.timestamp.toUInt64.toNat)) := by
  simp only [encodeMessageNotify, writeInt32_eq, writeUint32_eq, writeInt64_eq,
    UInt32.toNat_ofNat', List.append_assoc, List.nil_append]

theorem encodeRegisterResponse_eq (resp : RegisterResponse) :
    encodeRegisterResponse resp = toBytes 2 resp.errorCode.toUInt16.toNat
      ++ toBytes 4 resp.userId.toUInt32.toNat := by
  simp only [encodeRegisterResponse, writeUint16_eq, writeInt32_eq, List.nil_append]

theorem encodeSecurityQuestionResponse_eq (resp : SecurityQuestionResponse) :
    encodeSecurityQuestionResponse resp
      = toBytes 2 resp.errorCode.toUInt16.toNat ++ field resp.question := by
  simp only [encodeSecurityQuestionResponse, writeUint16_eq, writeString_eq, List.nil_append]

theorem encodeResetPasswordResponse_eq (resp : ResetPasswordResponse) :
    encodeResetPasswordResponse resp = toBytes 2 resp.errorCode.toUInt16.toNat := by
  simp only [encodeResetPasswordResponse, writeUint16_eq, List.nil_append]

theorem encodeVersionCheckResponse_eq (resp : VersionCheckResponse) :
    encodeVersionCheckResponse resp = toBytes 2 resp.errorCode.toUInt16.toNat
      ++ (toBytes 4 resp.serverVersion.toUInt32.toNat
        ++ (field resp.updateUrl ++ field resp.updateDesc)) := by
  simp only [encodeVersionCheckResponse, writeUint16_eq, writeInt32_eq, writeString_eq,
    List.append_assoc, List.nil_append]

theorem foldl_writeFriend (friends : List (Int32 × Bytes)) (buffer : Bytes) :
    friends.foldl writeFriend buffer = buffer ++ friends.flatMap friendBytes := by
  induction friends generalizing buffer with
  | nil => exact (List.append_nil buffer).symm
  | cons f friends ih =>
    rw [List.foldl_cons, ih, List.flatMap_cons, writeFriend, writeInt32_eq, writeString_eq,
      friendBytes]
    simp only [List.append_assoc]

theorem encodeFriendListResponse_eq (resp : FriendListResponse) :
    encodeFriendListResponse resp = toBytes 2 resp.errorCode.toUInt16.toNat
      ++ (toBytes 4 (resp.friends.length % 2 ^ 32) ++ resp.friends.flatMap friendBytes) := by
  simp only [encodeFriendListResponse, writeUint16_eq, writeUint32_eq, foldl_writeFriend,
    UInt32.toNat_ofNat', List.append_assoc, List.nil_append]

end Server

/-! ## What the client reads -/

namespace Client

/-- An optional string that is next in `data` is read whole. -/
theorem readOptional_of_drop {data str rest : Bytes} {offset : Nat} (hstr : str.length ≤ 65535)
    (h : data.drop offset = field str ++ rest) (old : Bytes) :
    readOptional data offset old = some (str, offset + (field str).length) := by
  obtain ⟨len, hread, hlen, hroom, hbody⟩ := field_of_drop hstr h
  rw [length_field, ← Nat.add_assoc]
  unfold readOptional
  simp only [hread, hlen, Option.bind_eq_bind, Option.bind_some, if_pos hroom, hbody,
    Option.pure_def]

theorem decodeLoginResponse_encode (resp out : LoginResponse)
    (hu : resp.username.length ≤ 65535) :
    decodeLoginResponse (Server.encodeLoginResponse resp) out = some (some resp) := by
  rw [Server.encodeLoginResponse_eq]
  generalize hdata : toBytes 2 resp.errorCode.toUInt16.toNat
    ++ (toBytes 4 resp.userId.toUInt32.toNat ++ field resp.username) = data
  have hlen : data.length = 8 + resp.username.length := by
    rw [← hdata]
    simp only [List.length_append, length_toBytes, length_field]
    omega
  have h0 : data.drop 0 = toBytes 2 resp.errorCode.toUInt16.toNat
      ++ (toBytes 4 resp.userId.toUInt32.toNat ++ field resp.username) := hdata.symm
  have h2 : data.drop 2 = toBytes 4 resp.userId.toUInt32.toNat ++ field resp.username :=
    drop_of_drop h0
  have h6 : data.drop 6 = field resp.username ++ [] :=
    (drop_of_drop h2).trans (List.append_nil _).symm
  unfold decodeLoginResponse
  simp only [if_neg (show ¬ data.length < 6 by omega), Option.bind_eq_bind,
    readUint16_of_drop h0, Option.bind_some, readInt32_of_drop h2,
    if_pos (show 6 < data.length by omega), readOptional_of_drop hu h6, UInt16.ofNat_toNat]
  rfl

theorem decodeMessageNotify_encode (notify : MessageNotify)
    (hc : notify.content.length < 2 ^ 32 - 16) :
    decodeMessageNotify (Server.encodeMessageNotify notify) = some (some notify) := by
  rw [Server.encodeMessageNotify_eq]
  generalize hdata : toBytes 4 notify.fromId.toUInt32.toNat
    ++ (toBytes 4 (notify.content.length % 2 ^ 32)
      ++ (notify.content ++ toBytes 8 notify.timestamp.toUInt64.toNat)) = data
  have hlen : data.length = 16 + notify.content.length := by
    rw [← hdata]
    simp only [List.length_append, length_toBytes]
    omega
  have h0 := hdata.symm
  rw [← List.drop_zero (l := data)] at h0
  have h4 : data.drop 4 = toBytes 4 (notify.content.length % 2 ^ 32)
      ++ (notify.content ++ toBytes 8 notify.timestamp.toUInt64.toNat) := drop_of_drop h0
  have h8 : data.drop 8 = notify.content ++ toBytes 8 notify.timestamp.toUInt64.toNat :=
    drop_of_drop h4
  have htail : data.drop (8 + notify.content.length)
      = toBytes 8 notify.timestamp.toUInt64.toNat ++ [] :=
    (drop_of_drop h8).trans (List.append_nil _).symm
  have hmod : notify.content.length % 2 ^ 32 = notify.content.length :=
    Nat.mod_eq_of_lt (by omega)
  -- Neither `uint32_t` sum wraps: the content leaves room for the 16 fixed bytes.
  have hindex : (8 + UInt32.ofNat notify.content.length).toNat = 8 + notify.content.length := by
    rw [UInt32.toNat_add, UInt32.toNat_ofNat', hmod]
    exact Nat.mod_eq_of_lt (by show 8 + notify.content.length < 2 ^ 32; omega)
  have hsum : (8 + UInt32.ofNat notify.content.length + 8).toNat
      = 16 + notify.content.length := by
    rw [UInt32.toNat_add, hindex]
    show (8 + notify.content.length + 8) % 2 ^ 32 = _
    omega
  unfold decodeMessageNotify
  simp only [if_neg (show ¬ data.length < 16 by omega), Option.bind_eq_bind,
    readInt32_of_drop h0, Option.bind_some, readUint32_of_drop h4, hmod, hsum, hindex,
    if_neg (show ¬ 16 + notify.content.length > data.length by omega), UInt32.toNat_ofNat',
    readString_of_drop (show 8 ≤ data.length by omega) h8, readInt64_of_drop htail]
  rfl

theorem decodeRegisterResponse_encode (resp : RegisterResponse) :
    decodeRegisterResponse (Server.encodeRegisterResponse resp) = some (some resp) := by
  rw [Server.encodeRegisterResponse_eq]
  generalize hdata : toBytes 2 resp.errorCode.toUInt16.toNat
    ++ toBytes 4 resp.userId.toUInt32.toNat = data
  have hlen : data.length = 6 := by
    rw [← hdata, List.length_append, length_toBytes, length_toBytes]
  have h0 : data.drop 0 = toBytes 2 resp.errorCode.toUInt16.toNat
      ++ toBytes 4 resp.userId.toUInt32.toNat := hdata.symm
  have h2 : data.drop 2 = toBytes 4 resp.userId.toUInt32.toNat ++ [] :=
    (drop_of_drop h0).trans (List.append_nil _).symm
  unfold decodeRegisterResponse
  simp only [if_neg (show ¬ data.length < 6 by omega), Option.bind_eq_bind,
    readUint16_of_drop h0, Option.bind_some, readInt32_of_drop h2, UInt16.ofNat_toNat]
  rfl

theorem decodeSecurityQuestionResponse_encode (resp out : SecurityQuestionResponse)
    (hq : resp.question.length ≤ 65535) :
    decodeSecurityQuestionResponse (Server.encodeSecurityQuestionResponse resp) out
      = some (some resp) := by
  rw [Server.encodeSecurityQuestionResponse_eq]
  generalize hdata : toBytes 2 resp.errorCode.toUInt16.toNat ++ field resp.question = data
  have hlen : data.length = 4 + resp.question.length := by
    rw [← hdata, List.length_append, length_toBytes, length_field]
    omega
  have h0 : data.drop 0 = toBytes 2 resp.errorCode.toUInt16.toNat ++ field resp.question :=
    hdata.symm
  have h2 : data.drop 2 = field resp.question ++ [] :=
    (drop_of_drop h0).trans (List.append_nil _).symm
  unfold decodeSecurityQuestionResponse
  simp only [if_neg (show ¬ data.length < 2 by omega), Option.bind_eq_bind,
    readUint16_of_drop h0, Option.bind_some, if_pos (show 2 < data.length by omega),
    readOptional_of_drop hq h2, UInt16.ofNat_toNat]
  rfl

theorem decodeResetPasswordResponse_encode (resp : ResetPasswordResponse) :
    decodeResetPasswordResponse (Server.encodeResetPasswordResponse resp) = some (some resp) := by
  rw [Server.encodeResetPasswordResponse_eq]
  have h0 : (toBytes 2 resp.errorCode.toUInt16.toNat).drop 0
      = toBytes 2 resp.errorCode.toUInt16.toNat ++ [] := (List.append_nil _).symm
  have hlen : ¬ (toBytes 2 resp.errorCode.toUInt16.toNat).length < 2 := by
    rw [length_toBytes]
    omega
  unfold decodeResetPasswordResponse
  simp only [if_neg hlen, Option.bind_eq_bind, readUint16_of_drop h0, Option.bind_some,
    UInt16.ofNat_toNat]
  rfl

theorem decodeVersionCheckResponse_encode (resp out : VersionCheckResponse)
    (hurl : resp.updateUrl.length ≤ 65535) (hdesc : resp.updateDesc.length ≤ 65535) :
    decodeVersionCheckResponse (Server.encodeVersionCheckResponse resp) out
      = some (some resp) := by
  rw [Server.encodeVersionCheckResponse_eq]
  generalize hdata : toBytes 2 resp.errorCode.toUInt16.toNat
    ++ (toBytes 4 resp.serverVersion.toUInt32.toNat
      ++ (field resp.updateUrl ++ field resp.updateDesc)) = data
  have hlen : data.length = 10 + resp.updateUrl.length + resp.updateDesc.length := by
    rw [← hdata]
    simp only [List.length_append, length_toBytes, length_field]
    omega
  have h0 := hdata.symm
  rw [← List.drop_zero (l := data)] at h0
  have h2 : data.drop 2 = toBytes 4 resp.serverVersion.toUInt32.toNat
      ++ (field resp.updateUrl ++ field resp.updateDesc) := drop_of_drop h0
  have h6 : data.drop 6 = field resp.updateUrl ++ field resp.updateDesc := drop_of_drop h2
  have hdesc6 : data.drop (6 + (field resp.updateUrl).length) = field resp.updateDesc ++ [] :=
    (drop_of_drop h6).trans (List.append_nil _).symm
  unfold decodeVersionCheckResponse
  simp only [if_neg (show ¬ data.length < 6 by omega), Option.bind_eq_bind,
    readUint16_of_drop h0, Option.bind_some, readInt32_of_drop h2,
    if_pos (room_of_drop h6), readOptional_of_drop hurl h6, if_pos (room_of_drop hdesc6),
    readOptional_of_drop hdesc hdesc6, UInt16.ofNat_toNat]
  rfl

/-! ### The friend list -/

theorem decodeFriendListResponse_encode (pairs : List (Int32 × Bytes))
    (hcount : pairs.length < 2 ^ 32) (hnames : ∀ f ∈ pairs, f.2.length ≤ 65535)
    (friends : List FriendInfo) :
    decodeFriendListResponse (Server.encodeFriendListResponse ⟨.success, pairs⟩) friends
      = some (true, friends ++ pairs.map friendInfo) := by
  rw [Server.encodeFriendListResponse_eq]
  generalize hdata : toBytes 2 ErrorCode.success.toUInt16.toNat
    ++ (toBytes 4 (pairs.length % 2 ^ 32) ++ pairs.flatMap Server.friendBytes) = data
  have hlen : 6 ≤ data.length := by
    rw [← hdata]
    simp only [List.length_append, length_toBytes]
    omega
  have h0 := hdata.symm
  rw [← List.drop_zero (l := data)] at h0
  have h2 : data.drop 2
      = toBytes 4 (pairs.length % 2 ^ 32) ++ pairs.flatMap Server.friendBytes := drop_of_drop h0
  have h6 : data.drop 6 = pairs.flatMap Server.friendBytes ++ [] :=
    (drop_of_drop h2).trans (List.append_nil _).symm
  have haccepted : ¬ FriendList.Refused data := by
    refine not_or_intro (Nat.not_lt.mpr hlen) (not_not_intro ?_)
    rw [← hdata]
    exact FriendList.errorCode_append ..
  have hpairs : FriendList.count data = pairs.length := by
    have htake : (data.drop 2).take 4 = toBytes 4 (pairs.length % 2 ^ 32) := by
      rw [h2]
      exact List.take_left' (length_toBytes 4 _)
    rw [FriendList.count, htake, ofBytes_toBytes, Nat.mod_eq_of_lt hcount]
    exact Nat.mod_eq_of_lt hcount
  have hentries := entriesFrom_of_drop hnames h6 friendEntry_not_complete_nil
  rw [decodeFriendListResponse_eq, if_neg haccepted, hpairs, hentries,
    List.take_of_length_le (Nat.le_of_eq (List.length_map _))]

end Client

/-- **Response round trip.** Every response value whose strings fit their
length fields is returned unchanged by the client's decoder for it; for the
friend list this is the `SUCCESS` answer, with the friends in order behind
whatever the vector already held. -/
theorem response_roundtrip :
    (∀ resp out : LoginResponse, resp.username.length ≤ 65535 →
      Client.decodeLoginResponse (Server.encodeLoginResponse resp) out = some (some resp))
    ∧ (∀ notify : MessageNotify, notify.content.length < 2 ^ 32 - 16 →
      Client.decodeMessageNotify (Server.encodeMessageNotify notify) = some (some notify))
    ∧ (∀ resp : RegisterResponse,
      Client.decodeRegisterResponse (Server.encodeRegisterResponse resp) = some (some resp))
    ∧ (∀ resp out : SecurityQuestionResponse, resp.question.length ≤ 65535 →
      Client.decodeSecurityQuestionResponse (Server.encodeSecurityQuestionResponse resp) out
        = some (some resp))
    ∧ (∀ resp : ResetPasswordResponse,
      Client.decodeResetPasswordResponse (Server.encodeResetPasswordResponse resp)
        = some (some resp))
    ∧ (∀ resp out : VersionCheckResponse, resp.updateUrl.length ≤ 65535 →
      resp.updateDesc.length ≤ 65535 →
      Client.decodeVersionCheckResponse (Server.encodeVersionCheckResponse resp) out
        = some (some resp))
    ∧ (∀ (pairs : List (Int32 × Bytes)) (friends : List FriendInfo), pairs.length < 2 ^ 32 →
      (∀ f ∈ pairs, f.2.length ≤ 65535) →
      Client.decodeFriendListResponse (Server.encodeFriendListResponse ⟨.success, pairs⟩) friends
        = some (true, friends ++ pairs.map Client.friendInfo)) :=
  ⟨Client.decodeLoginResponse_encode, Client.decodeMessageNotify_encode,
    Client.decodeRegisterResponse_encode, Client.decodeSecurityQuestionResponse_encode,
    Client.decodeResetPasswordResponse_encode, Client.decodeVersionCheckResponse_encode,
    fun pairs friends hcount hnames =>
      Client.decodeFriendListResponse_encode pairs hcount hnames friends⟩

/-- One value of each response with a string or a list: among them a notification
from before the epoch, and a two-entry friend list. -/
theorem response_roundtrip_values :
    Client.decodeLoginResponse (Server.encodeLoginResponse ⟨.success, 1, [97]⟩) ⟨.success, 0, []⟩
        = some (some ⟨.success, 1, [97]⟩)
      ∧ Client.decodeMessageNotify (Server.encodeMessageNotify ⟨-7, [104, 105], -1⟩)
        = some (some ⟨-7, [104, 105], -1⟩)
      ∧ Client.decodeSecurityQuestionResponse
          (Server.encodeSecurityQuestionResponse ⟨.success, [63]⟩) ⟨.success, []⟩
        = some (some ⟨.success, [63]⟩)
      ∧ Client.decodeVersionCheckResponse
          (Server.encodeVersionCheckResponse ⟨.success, 2, [117], []⟩) ⟨.success, 0, [], []⟩
        = some (some ⟨.success, 2, [117], []⟩)
      ∧ Client.decodeFriendListResponse
          (Server.encodeFriendListResponse ⟨.success, [(2, [97]), (-3, [])]⟩) []
        = some (true, [⟨2, [97]⟩, ⟨-3, []⟩]) := by
  obtain ⟨hlogin, hnotify, _, hquestion, _, hversion, hfriends⟩ := response_roundtrip
  refine ⟨hlogin ⟨.success, 1, [97]⟩ _ (by decide), hnotify ⟨-7, [104, 105], -1⟩ (by decide),
    hquestion ⟨.success, [63]⟩ _ (by decide), ?_, ?_⟩
  · exact hversion ⟨.success, 2, [117], []⟩ _ (by decide) (by decide)
  · exact hfriends [(2, [97]), (-3, [])] [] (by decide) (by decide)

end QQChat
