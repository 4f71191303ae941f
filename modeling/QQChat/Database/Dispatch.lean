import QQChat.Database.Pool
import QQChat.Server.Answers

/-!
# Requests and the tables

`handle_message` with the tables of `init.sql` behind it (`dispatch`), as the step
of runs that hand over one packet after the other, each with its own outcomes of
the statements it executes.

What a request may write is said once (`Writes`): each of the three tables is
written by one kind of request, `users` by two, and rows are never taken away.
-/

namespace QQChat.Database

open Server ChatServer

/-! ## What a request writes -/

section

variable {δ : Type}

/-- The tables after a request of the user that the connection is authenticated as:
as before, or what the handler's statement made of them. -/
inductive Writes (w : World δ) (db : δ) (userId : Int32) : Request → δ → Prop
  | nothing {r : Request} : Writes w db userId r db
  | message {req : MessageRequest} {db' : δ} {msgId : Int32} (hauth : userId ≠ 0)
      (h : w.db.sendMessage db userId req.toId req.content = some (db', msgId)) :
      Writes w db userId (.message req) db'
  | addFriend {friendId : Int32} {db' : δ} (hauth : userId ≠ 0) (hself : userId ≠ friendId)
      (hfriend : (w.db.getUserById db friendId).isSome)
      (h : w.db.addFriend db userId friendId = some db') :
      Writes w db userId (.addFriend friendId) ((w.db.addFriend db' friendId userId).getD db')
  | register {req : RegisterRequest} {db' : δ} {newId : Int32}
      (h : w.db.registerUser db req.username (w.sha256 req.password) req.securityQuestion
        (w.sha256 req.securityAnswer) = some (db', newId)) :
      Writes w db userId (.register req) db'
  | resetPassword {req : ResetPasswordRequest} {db' : δ}
      (h : w.db.resetPassword db req.username (w.sha256 req.newPassword) = some db') :
      Writes w db userId (.resetPassword req) db'

theorem db_deliver (w : World δ) (s : ChatServer δ) (fromId : Int32) (req : MessageRequest) :
    (deliver w s fromId req).db = s.db := by
  unfold deliver sendToUser safeCommand
  split
  · split
    · rfl
    · split <;> rfl
  · split <;> rfl

theorem db_handleLogin (w : World δ) (s : ChatServer δ) (c : ConnId) (req : LoginRequest) :
    (handleLogin w s c req).db = s.db := by
  dsimp only [handleLogin]
  split
  · rfl
  split
  · rfl
  · unfold safeCommand
    split <;> split <;> rfl

/-- How `handle_add_friend` comes out, exit by exit. -/
inductive AddsFriend (w : World δ) (db : δ) (userId friendId : Int32) : ErrorCode → δ → Prop
  | unauthenticated (hauth : userId = 0) : AddsFriend w db userId friendId .protocolError db
  | self (hauth : userId ≠ 0) (hself : userId = friendId) :
      AddsFriend w db userId friendId .cannotAddSelf db
  | unknown (hauth : userId ≠ 0) (hself : userId ≠ friendId)
      (hfriend : w.db.getUserById db friendId = none) :
      AddsFriend w db userId friendId .userNotFound db
  | present (hauth : userId ≠ 0) (hself : userId ≠ friendId)
      (hfriend : (w.db.getUserById db friendId).isSome)
      (hnone : w.db.addFriend db userId friendId = none) :
      AddsFriend w db userId friendId .friendRequestExists db
  | added {db' : δ} (hauth : userId ≠ 0) (hself : userId ≠ friendId)
      (hfriend : (w.db.getUserById db friendId).isSome)
      (hsome : w.db.addFriend db userId friendId = some db') :
      AddsFriend w db userId friendId .success ((w.db.addFriend db' friendId userId).getD db')

theorem handleRequest_addFriend (w : World δ) (s : ChatServer δ) (c : ConnId) (friendId : Int32) :
    ∃ errorCode db, AddsFriend w s.db (s.conn c).userId friendId errorCode db
      ∧ handleRequest w s c (.addFriend friendId)
        = { s with db }.sendResponse c .addFriendResp (encodeAddFriendResponse { errorCode }) := by
  dsimp only [handleRequest, handleAddFriend]
  split
  next hauth => exact ⟨_, _, .unauthenticated hauth, rfl⟩
  next hauth =>
    split
    next hself => exact ⟨_, _, .self hauth hself, rfl⟩
    next hself =>
      split
      next hnone => exact ⟨_, _, .unknown hauth hself hnone, rfl⟩
      next user hsome =>
        have hfriend : (w.db.getUserById s.db friendId).isSome :=
          Option.isSome_iff_exists.mpr ⟨user, hsome⟩
        split
        next hnone => exact ⟨_, _, .present hauth hself hfriend hnone, rfl⟩
        next db hdb => exact ⟨_, _, .added hauth hself hfriend hdb, rfl⟩

/-- How `handle_register` comes out. -/
inductive Registers (w : World δ) (db : δ) (req : RegisterRequest) : RegisterResponse → δ → Prop
  | refused {errorCode : ErrorCode} (herror : errorCode ≠ .success) :
      Registers w db req { errorCode, userId := 0 } db
  | registered {db' : δ} {userId : Int32}
      (hsome : w.db.registerUser db req.username (w.sha256 req.password) req.securityQuestion
        (w.sha256 req.securityAnswer) = some (db', userId)) :
      Registers w db req { errorCode := .success, userId } db'

theorem handleRequest_register (w : World δ) (s : ChatServer δ) (c : ConnId)
    (req : RegisterRequest) : ∃ resp db, Registers w s.db req resp db
      ∧ handleRequest w s c (.register req)
        = { s with db }.sendResponse c .registerResp (encodeRegisterResponse resp) := by
  dsimp only [handleRequest, handleRegister]
  split
  · exact ⟨_, _, .refused (by decide : ErrorCode.invalidRequest ≠ .success), rfl⟩
  split
  · exact ⟨_, _, .refused (by decide : ErrorCode.usernameExists ≠ .success), rfl⟩
  split
  · exact ⟨_, _, .refused (by decide : ErrorCode.databaseError ≠ .success), rfl⟩
  next hsome => exact ⟨_, _, .registered hsome, rfl⟩

/-- How `handle_reset_password` comes out. -/
inductive Resets (w : World δ) (db : δ) (req : ResetPasswordRequest) : ErrorCode → δ → Prop
  | refused {errorCode : ErrorCode} (herror : errorCode ≠ .success) : Resets w db req errorCode db
  | reset {db' : δ}
      (hsome : w.db.resetPassword db req.username (w.sha256 req.newPassword) = some db') :
      Resets w db req .success db'

theorem handleRequest_resetPassword (w : World δ) (s : ChatServer δ) (c : ConnId)
    (req : ResetPasswordRequest) : ∃ errorCode db, Resets w s.db req errorCode db
      ∧ handleRequest w s c (.resetPassword req)
        = { s with db }.sendResponse c .resetPasswordResp
          (encodeResetPasswordResponse { errorCode }) := by
  dsimp only [handleRequest, handleResetPassword]
  split
  · exact ⟨_, _, .refused (by decide : ErrorCode.invalidRequest ≠ .success), rfl⟩
  split
  · exact ⟨_, _, .refused (by decide : ErrorCode.userNotFound ≠ .success), rfl⟩
  split
  · exact ⟨_, _, .refused (by decide : ErrorCode.invalidAnswer ≠ .success), rfl⟩
  split
  · exact ⟨_, _, .refused (by decide : ErrorCode.databaseError ≠ .success), rfl⟩
  next hsome => exact ⟨_, _, .reset hsome, rfl⟩

/-- What `handle_friend_list` answers. -/
inductive ListsFriends (w : World δ) (db : δ) (userId : Int32) : FriendListResponse → Prop
  | refused {errorCode : ErrorCode} (herror : errorCode ≠ .success) :
      ListsFriends w db userId { errorCode, friends := [] }
  | listed {friends : List Friend} (hauth : userId ≠ 0)
      (hsome : w.db.getFriends db userId = some friends) :
      ListsFriends w db userId {
        errorCode := .success
        friends := friends.map fun f => (f.friendId, f.friendName) }

theorem handleRequest_friendList (w : World δ) (s : ChatServer δ) (c : ConnId) :
    ∃ resp, ListsFriends w s.db (s.conn c).userId resp
      ∧ handleRequest w s c .friendList
        = s.sendResponse c .friendListResp (encodeFriendListResponse resp) := by
  dsimp only [handleRequest, handleFriendList]
  split
  next hauth => exact ⟨_, .refused (by decide : ErrorCode.protocolError ≠ .success), rfl⟩
  next hauth =>
    split
    next hnone => exact ⟨_, .refused (by decide : ErrorCode.databaseError ≠ .success), rfl⟩
    next friends hsome => exact ⟨_, .listed hauth hsome, rfl⟩

/-- A friend list is only ever sent to a user who asks for it. -/
theorem friendList_of_passed {w : World δ} {s : ChatServer δ} {c : ConnId} {r : Request}
    {p : ConnId × Bytes} (hp : p ∈ passedToSend s (handleRequest w s c r))
    (hcommand : commandOf p.2 = some .friendListResp) :
    ∃ resp, ListsFriends w s.db (s.conn c).userId resp ∧ p = (c, encode {
      version := VERSION
      command := .friendListResp
      data := encodeFriendListResponse resp }) := by
  by_cases hr : r = .friendList
  · subst hr
    obtain ⟨resp, hlists, heq⟩ := handleRequest_friendList w s c
    have hpassed := (Passed.sendResponse s c .friendListResp
      (encodeFriendListResponse resp)).passedToSend
    rw [heq, hpassed] at hp
    exact ⟨resp, hlists, List.mem_singleton.mp hp⟩
  · rcases (handleRequest_responds w s c r).commandOf_passed hp with h | h
    · rw [hcommand] at h
      exact absurd h (by decide)
    · rw [hcommand] at h
      cases r with
      | friendList => exact absurd rfl hr
      | _ => exact absurd h (by simp only [Request.command]; decide)

/-- **What a request writes.** -/
theorem handleRequest_writes (w : World δ) (s : ChatServer δ) (c : ConnId) (r : Request) :
    Writes w s.db (s.conn c).userId r (handleRequest w s c r).db := by
  cases r with
  | login req =>
    rw [handleRequest, db_handleLogin]
    exact .nothing
  | message req =>
    rcases handleChatMessage_cases w s c req with
      ⟨hauth, db, msgId, hdb, heq⟩ | ⟨_, _, _, _, heq⟩
    · -- The row is in before the recipient is looked up.
      rw [handleRequest, heq]
      show Writes w s.db _ _ (deliver w { s with db } _ req).db
      rw [db_deliver]
      exact .message hauth hdb
    · rw [handleRequest, heq]
      exact .nothing
  | friendList =>
    dsimp only [handleRequest, handleFriendList]
    split
    · exact .nothing
    · split <;> exact .nothing
  | addFriend friendId =>
    obtain ⟨errorCode, db, hadds, heq⟩ := handleRequest_addFriend w s c friendId
    rw [heq]
    cases hadds with
    | added hauth hself hfriend hsome => exact .addFriend hauth hself hfriend hsome
    | unauthenticated hauth => exact .nothing
    | self hauth hself => exact .nothing
    | unknown hauth hself hnone => exact .nothing
    | present hauth hself hfriend hnone => exact .nothing
  | register req =>
    obtain ⟨resp, db, hregisters, heq⟩ := handleRequest_register w s c req
    rw [heq]
    cases hregisters with
    | refused herror => exact .nothing
    | registered hsome => exact .register hsome
  | securityQuestion req =>
    dsimp only [handleRequest, handleSecurityQuestion]
    split
    · exact .nothing
    · split <;> exact .nothing
  | resetPassword req =>
    obtain ⟨errorCode, db, hresets, heq⟩ := handleRequest_resetPassword w s c req
    rw [heq]
    cases hresets with
    | refused herror => exact .nothing
    | reset hsome => exact .resetPassword hsome
  | versionCheck req => exact .nothing

end

/-! ## What the pool's members write -/

section

variable {collation : Collation} {hash : Sha256} {mysql : MySQL} {t t' : Tables}

theorem addFriend_eq_some {userId friendId : Int32} :
    addFriend mysql t userId friendId = some t' ↔
      mysql.executes (.insertFriend userId friendId) = true
        ∧ (t.hasUser userId = true ∧ t.hasUser friendId = true)
        ∧ t' = { t with friends := t.friends ++ [{ userId, friendId, status := 1 }] } := by
  unfold addFriend
  rw [Option.ite_none_right_eq_some, Tables.insertFriend_eq_some]

theorem sendMessage_eq_some {fromId toId msgId : Int32} {content : Bytes}
    (h : sendMessage collation mysql t fromId toId content = some (t', msgId)) :
    t' = { t with
      messages := t.messages ++ [{ msgId := mysql.msgId, fromId, toId, content }] } := by
  obtain ⟨_, hinsert⟩ := Option.ite_none_right_eq_some.mp h
  obtain ⟨_, hrow, heq⟩ := Option.map_eq_some_iff.mp hinsert
  cases heq
  exact Tables.insertMessage_eq_some hrow

theorem registerUser_eq_some {username passwordHash question answerHash : Bytes} {newId : Int32} :
    registerUser collation mysql t username passwordHash question answerHash = some (t', newId) ↔
      mysql.executes (.insertUser username passwordHash question answerHash) = true
        ∧ t.insertUser collation ⟨mysql.userId, username, passwordHash, none, question, answerHash⟩
          = some t'
        ∧ newId = mysql.userId.val := by
  unfold registerUser
  rw [Option.ite_none_right_eq_some]
  refine and_congr_right fun _ => ?_
  constructor
  · intro h
    obtain ⟨_, hrow, heq⟩ := Option.map_eq_some_iff.mp h
    cases heq
    exact ⟨hrow, rfl⟩
  · intro ⟨hrow, hid⟩
    rw [hrow, hid]
    rfl

theorem resetPassword_eq_some {username newPasswordHash : Bytes} :
    resetPassword collation mysql t username newPasswordHash = some t' ↔
      mysql.executes (.updatePassword newPasswordHash username) = true
        ∧ t.updatePassword collation newPasswordHash username = some t' := by
  unfold resetPassword
  rw [Option.ite_none_right_eq_some]

end

section

variable {collation : Collation} {hash : Sha256} {mysql : MySQL} {w : World Tables}
  {t t' : Tables} {userId : Int32} {r : Request}

/-- An insert into `friends`, made or not, leaves the other tables alone. -/
theorem getD_addFriend (t : Tables) (userId friendId : Int32) :
    ((addFriend mysql t userId friendId).getD t).users = t.users
      ∧ ((addFriend mysql t userId friendId).getD t).messages = t.messages := by
  cases h : addFriend mysql t userId friendId with
  | none => exact ⟨rfl, rfl⟩
  | some t' =>
    rw [Option.getD_some, (addFriend_eq_some.mp h).2.2]
    exact ⟨rfl, rfl⟩

/-- Only an ADD_FRIEND_REQ writes `friends`. -/
theorem Writes.friends_eq (hw : w.db = databasePool collation hash mysql)
    (h : Writes w t userId r t') (hr : ∀ friendId, r ≠ .addFriend friendId) :
    t'.friends = t.friends := by
  cases h with
  | nothing => rfl
  | message hauth h =>
    rw [hw] at h
    rw [sendMessage_eq_some h]
  | addFriend hauth hself hfriend h => exact absurd rfl (hr _)
  | register h =>
    rw [hw] at h
    rw [(Tables.insertUser_eq_some.mp (registerUser_eq_some.mp h).2.1).2]
  | resetPassword h =>
    rw [hw] at h
    rw [Tables.updatePassword_eq_some (resetPassword_eq_some.mp h).2]

/-- Only a MESSAGE_REQ writes `messages`. -/
theorem Writes.messages_eq (hw : w.db = databasePool collation hash mysql)
    (h : Writes w t userId r t') (hr : ∀ req, r ≠ .message req) : t'.messages = t.messages := by
  cases h with
  | nothing => rfl
  | message hauth h => exact absurd rfl (hr _)
  | addFriend hauth hself hfriend h =>
    rw [hw] at h ⊢
    refine (getD_addFriend _ _ _).2.trans ?_
    rw [(addFriend_eq_some.mp h).2.2]
  | register h =>
    rw [hw] at h
    rw [(Tables.insertUser_eq_some.mp (registerUser_eq_some.mp h).2.1).2]
  | resetPassword h =>
    rw [hw] at h
    rw [Tables.updatePassword_eq_some (resetPassword_eq_some.mp h).2]

/-- Only a REGISTER_REQ and a RESET_PASSWORD_REQ write `users`. -/
theorem Writes.users_eq (hw : w.db = databasePool collation hash mysql)
    (h : Writes w t userId r t') (hregister : ∀ req, r ≠ .register req)
    (hreset : ∀ req, r ≠ .resetPassword req) : t'.users = t.users := by
  cases h with
  | nothing => rfl
  | message hauth h =>
    rw [hw] at h
    rw [sendMessage_eq_some h]
  | addFriend hauth hself hfriend h =>
    rw [hw] at h ⊢
    refine (getD_addFriend _ _ _).1.trans ?_
    rw [(addFriend_eq_some.mp h).2.2]
  | register h => exact absurd rfl (hregister _)
  | resetPassword h => exact absurd rfl (hreset _)

/-- Users stay. -/
theorem Writes.hasUser (hw : w.db = databasePool collation hash mysql)
    (h : Writes w t userId r t') {id : Int32} (hid : t.hasUser id = true) :
    t'.hasUser id = true := by
  obtain ⟨row, hrow, hrowId⟩ := Tables.hasUser_iff.mp hid
  by_cases hother : (∃ req, r = .register req) ∨ ∃ req, r = .resetPassword req
  · cases h with
    | register h =>
      rw [hw] at h
      rw [(Tables.insertUser_eq_some.mp (registerUser_eq_some.mp h).2.1).2]
      exact Tables.hasUser_iff.mpr ⟨row, List.mem_append_left _ hrow, hrowId⟩
    | resetPassword h =>
      rw [hw] at h
      rw [Tables.updatePassword_eq_some (resetPassword_eq_some.mp h).2]
      refine Tables.hasUser_iff.mpr ⟨_, List.mem_map_of_mem hrow, ?_⟩
      split <;> exact hrowId
    | nothing => exact hid
    | message hauth h => rcases hother with ⟨_, heq⟩ | ⟨_, heq⟩ <;> cases heq
    | addFriend hauth hself hfriend h => rcases hother with ⟨_, heq⟩ | ⟨_, heq⟩ <;> cases heq
  · have husers := h.users_eq hw (fun req heq => hother (Or.inl ⟨req, heq⟩))
      fun req heq => hother (Or.inr ⟨req, heq⟩)
    exact Tables.hasUser_iff.mpr ⟨row, husers ▸ hrow, hrowId⟩

end

/-! ## One packet after the other -/

/-- A packet that is handed over, and what the callback finds outside the process. -/
structure Dispatched where
  conn : ConnId
  packet : Packet
  mysql : MySQL
  redis : CacheCommand → Bool
  now : Int64

/-- The request in the packet, if it is decoded. -/
def Dispatched.request (d : Dispatched) : Option Request :=
  (decodeRequest d.packet).join

def dispatch (collation : Collation) (hash : Sha256) (s : ChatServer Tables) (d : Dispatched) :
    Option (ChatServer Tables) :=
  handleMessage (world collation hash d.mysql d.redis d.now) s d.conn d.packet

/-- The callback's answer is of this kind and carries this error code. -/
def AnswersWith (s s' : ChatServer Tables) (command : CommandCode) (errorCode : ErrorCode) : Prop :=
  ∃ p ∈ passedToSend s s', commandOf p.2 = some command ∧ errorCodeOf p.2 = some errorCode

instance (s s' : ChatServer Tables) (command : CommandCode) (errorCode : ErrorCode) :
    Decidable (AnswersWith s s' command errorCode) :=
  inferInstanceAs (Decidable (∃ p ∈ passedToSend s s', _))

section

variable {collation : Collation} {hash : Sha256} {s s' : ChatServer Tables} {d : Dispatched}

/-- A packet that decodes is a request carried out; any other only leaves a record. -/
theorem dispatch_cases (h : dispatch collation hash s d = some s') :
    (d.request = none ∧ s' = s.called d.conn d.packet)
      ∨ ∃ r, d.request = some r
        ∧ s' = handleRequest (world collation hash d.mysql d.redis d.now)
          (s.called d.conn d.packet) d.conn r := by
  obtain ⟨r, hr, hs'⟩ := handleMessage_eq_some.mp h
  unfold Dispatched.request
  rw [hr]
  cases r with
  | none => exact Or.inl ⟨rfl, hs'⟩
  | some r => exact Or.inr ⟨r, rfl, hs'⟩

theorem dispatch_request (h : dispatch collation hash s d = some s') {r : Request}
    (hr : d.request = some r) :
    s' = handleRequest (world collation hash d.mysql d.redis d.now)
      (s.called d.conn d.packet) d.conn r := by
  rcases dispatch_cases h with ⟨hnone, _⟩ | ⟨r', hr', hs'⟩
  · rw [hnone] at hr
    cases hr
  · rw [hr] at hr'
    cases hr'
    exact hs'

theorem dispatch_writes (h : dispatch collation hash s d = some s') {r : Request}
    (hr : d.request = some r) :
    Writes (world collation hash d.mysql d.redis d.now) s.db (s.conn d.conn).userId r s'.db := by
  rw [dispatch_request h hr]
  exact handleRequest_writes _ (s.called d.conn d.packet) d.conn r

theorem friends_of_dispatch (h : dispatch collation hash s d = some s')
    (hr : ∀ friendId, d.request ≠ some (.addFriend friendId)) :
    s'.db.friends = s.db.friends := by
  rcases dispatch_cases h with ⟨_, rfl⟩ | ⟨r, hrequest, _⟩
  · rfl
  · refine (dispatch_writes h hrequest).friends_eq rfl fun friendId heq => hr friendId ?_
    rw [hrequest, heq]

theorem hasUser_of_dispatch (h : dispatch collation hash s d = some s') {id : Int32}
    (hid : s.db.hasUser id = true) : s'.db.hasUser id = true := by
  rcases dispatch_cases h with ⟨_, rfl⟩ | ⟨r, hr, _⟩
  · exact hid
  · exact (dispatch_writes h hr).hasUser rfl hid

/-- An ADD_FRIEND_REQ: the tables, and the one answer. -/
theorem dispatch_addFriend (h : dispatch collation hash s d = some s') {friendId : Int32}
    (hr : d.request = some (.addFriend friendId)) :
    ∃ errorCode, AddsFriend (world collation hash d.mysql d.redis d.now) s.db
        (s.conn d.conn).userId friendId errorCode s'.db
      ∧ passedToSend s s' = [(d.conn, encode {
          version := VERSION
          command := .addFriendResp
          data := encodeAddFriendResponse { errorCode } })] := by
  obtain ⟨errorCode, db, hadds, heq⟩ := handleRequest_addFriend
    (world collation hash d.mysql d.redis d.now) (s.called d.conn d.packet) d.conn friendId
  rw [dispatch_request h hr, heq]
  exact ⟨errorCode, hadds, passedToSend_eq rfl⟩

theorem dispatch_register (h : dispatch collation hash s d = some s') {req : RegisterRequest}
    (hr : d.request = some (.register req)) :
    ∃ resp, Registers (world collation hash d.mysql d.redis d.now) s.db req resp s'.db
      ∧ passedToSend s s' = [(d.conn, encode {
          version := VERSION
          command := .registerResp
          data := encodeRegisterResponse resp })] := by
  obtain ⟨resp, db, hregisters, heq⟩ := handleRequest_register
    (world collation hash d.mysql d.redis d.now) (s.called d.conn d.packet) d.conn req
  rw [dispatch_request h hr, heq]
  exact ⟨resp, hregisters, passedToSend_eq rfl⟩

theorem dispatch_resetPassword (h : dispatch collation hash s d = some s')
    {req : ResetPasswordRequest} (hr : d.request = some (.resetPassword req)) :
    ∃ errorCode, Resets (world collation hash d.mysql d.redis d.now) s.db req errorCode s'.db
      ∧ passedToSend s s' = [(d.conn, encode {
          version := VERSION
          command := .resetPasswordResp
          data := encodeResetPasswordResponse { errorCode } })] := by
  obtain ⟨errorCode, db, hresets, heq⟩ := handleRequest_resetPassword
    (world collation hash d.mysql d.redis d.now) (s.called d.conn d.packet) d.conn req
  rw [dispatch_request h hr, heq]
  exact ⟨errorCode, hresets, passedToSend_eq rfl⟩

theorem users_of_dispatch (h : dispatch collation hash s d = some s')
    (hregister : ∀ req, d.request ≠ some (.register req))
    (hreset : ∀ req, d.request ≠ some (.resetPassword req)) : s'.db.users = s.db.users := by
  rcases dispatch_cases h with ⟨_, rfl⟩ | ⟨r, hr, _⟩
  · rfl
  · refine (dispatch_writes h hr).users_eq rfl (fun req heq => hregister req ?_)
      fun req heq => hreset req ?_
    · rw [hr, heq]
    · rw [hr, heq]

theorem friendList_of_dispatch (h : dispatch collation hash s d = some s') {p : ConnId × Bytes}
    (hp : p ∈ passedToSend s s') (hcommand : commandOf p.2 = some .friendListResp) :
    ∃ resp, ListsFriends (world collation hash d.mysql d.redis d.now) s.db
        (s.conn d.conn).userId resp
      ∧ p = (d.conn, encode {
        version := VERSION
        command := .friendListResp
        data := encodeFriendListResponse resp }) := by
  rcases dispatch_cases h with ⟨_, rfl⟩ | ⟨r, _, rfl⟩
  · have hnone : passedToSend s (s.called d.conn d.packet) = [] :=
      passedToSend_eq (List.append_nil _).symm
    rw [hnone] at hp
    cases hp
  · exact friendList_of_passed (s := s.called d.conn d.packet) hp hcommand

/-- The one answer is of the kind and carries the error code that was encoded. -/
theorem answersWith_iff {c : ConnId} {command : CommandCode} {data : Bytes}
    {errorCode errorCode' : ErrorCode}
    (h : passedToSend s s' = [(c, encode { version := VERSION, command, data })])
    (hcarries : Carries data errorCode) :
    AnswersWith s s' command errorCode' ↔ errorCode' = errorCode := by
  unfold AnswersWith
  rw [h]
  simp only [List.mem_singleton, exists_eq_left, commandOf_encode, errorCodeOf_encode hcarries,
    true_and, Option.some_inj, eq_comm]

end

/-! ## The rows of `init.sql`, and a small MySQL -/

/-- `password123`. -/
def password123 : Bytes :=
  [112, 97, 115, 115, 119, 111, 114, 100, 49, 50, 51]

def digestPassword123 : Bytes :=
  [0xef, 0x92, 0xb7, 0x78, 0xba, 0xfe, 0x77, 0x1e, 0x89, 0x24, 0x5b, 0x89, 0xec, 0xbc, 0x08, 0xa4,
    0x4a, 0x4e, 0x16, 0x6c, 0x06, 0x65, 0x99, 0x11, 0x88, 0x1f, 0x38, 0x3d, 0x44, 0x73, 0xe9, 0x4f]

def digestX : Bytes :=
  [0x2d, 0x71, 0x16, 0x42, 0xb7, 0x26, 0xb0, 0x44, 0x01, 0x62, 0x7c, 0xa9, 0xfb, 0xac, 0x32, 0xf5,
    0xc8, 0x53, 0x0f, 0xb1, 0x90, 0x3c, 0xc4, 0xdb, 0x02, 0x25, 0x87, 0x17, 0x92, 0x1a, 0x48, 0x81]

/-- A hash that is right about `password123` and `x`. -/
def sampleHash : Sha256 where
  digest := fun str =>
    if str = password123 then digestPassword123
    else if str = [120] then digestX
    else (str ++ List.replicate 32 0).take 32
  length_digest := by
    intro str
    split
    · rfl
    split
    · rfl
    · rw [List.length_take, List.length_append, List.length_replicate]
      omega

/-- Well-formed text has as many characters as bytes that do not continue one; text
of digits and lower-case letters is compared byte for byte. -/
def utf8 : Collation where
  length := fun value => some (value.countP fun b => b / 64 ≠ 2)
  eq := fun a b => a = b
  refl := fun _ => decide_eq_true rfl
  symm := fun h => decide_eq_true (of_decide_eq_true h).symm
  trans := fun h h' => decide_eq_true ((of_decide_eq_true h).trans (of_decide_eq_true h'))

def initSql : Tables where
  users := [
    { userId := ⟨1, by decide⟩
      username := [97, 100, 109, 105, 110]
      passwordHash := digestPassword123.flatMap hexByte
      avatarUrl := none
      securityQuestion := literal "Your favorite pet name?"
      securityAnswer := digestPassword123.flatMap hexByte },
    { userId := ⟨2, by decide⟩
      username := [117, 115, 101, 114, 49]
      passwordHash := digestPassword123.flatMap hexByte
      avatarUrl := none
      securityQuestion := literal "Your first school name?"
      securityAnswer := digestPassword123.flatMap hexByte },
    { userId := ⟨3, by decide⟩
      username := [117, 115, 101, 114, 50]
      passwordHash := digestPassword123.flatMap hexByte
      avatarUrl := none
      securityQuestion := literal "Your birthday month?"
      securityAnswer := digestPassword123.flatMap hexByte }]
  friends := [⟨1, 2, 1⟩, ⟨1, 3, 1⟩, ⟨2, 1, 1⟩, ⟨3, 1, 1⟩]

/-- Everything is executed, and the rows of a join come as they were inserted. -/
def reachable : MySQL where
  executes := fun _ => true
  userId := ⟨4, by decide⟩
  msgId := 1
  behind := [0]
  order := id
  order_perm := fun rows => List.Perm.refl rows

/-- A request of the client's, on a connection. -/
def sent (c : ConnId) (r : Request) (mysql : MySQL) : Dispatched where
  conn := c
  packet := { version := VERSION, command := r.command, data := r.body }
  mysql
  redis := fun _ => true
  now := 0

/-- A server over the rows of `init.sql`, with a user on connection 1. -/
def serving (userId : Int32) : ChatServer Tables :=
  (ChatServer.init initSql).setUserId 1 userId

end QQChat.Database
