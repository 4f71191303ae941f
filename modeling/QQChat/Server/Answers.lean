import QQChat.Server.Delivery
import QQChat.Server.Stopped

/-!
# One answer for every request

What the eight handlers have in common: each answers exactly once, on the
connection the request came on and with the request's command plus one, and an
answer other than SUCCESS is all that a handler did (`handleRequest_responds`).

Two properties follow. A request that fails leaves the tables, the sessions and
the cache as they were (`unchanged_of_error`), and over a run the answers on a
connection are its requests, one for one and in order (`answers_paired`).
-/

namespace QQChat.Server

open Trace ChatServer

variable {δ : Type}

/-! ## What a handler passes to `send` -/

/-- The command that answers a request. -/
def answerCommand (command : CommandCode) : CommandCode :=
  ⟨command.toUInt16 + 1⟩

/-- A notification for a connection that the manager knows. -/
def IsNotification (s : ChatServer δ) (p : ConnId × Bytes) : Prop :=
  isNotify p.2 = true ∧ p.1 ∈ s.connections

theorem notification_of_mem_delivered {w : World δ} {s : ChatServer δ} {fromId : Int32}
    {req : MessageRequest} {p : ConnId × Bytes} (h : p ∈ delivered w s fromId req) :
    IsNotification s p := by
  unfold delivered at h
  split at h
  · cases h
  · split at h
    next hlive =>
      rw [List.mem_singleton.mp h]
      exact ⟨isNotify_notification _ _ _, hlive⟩
    next => cases h

/-- The record of a send. -/
def sendCall (p : ConnId × Bytes) : Call :=
  .send p.1 p.2

/-- From `s` to `s'`, the buffers `sends` were passed to `send`, in this order. -/
structure Passed (s s' : ChatServer δ) (sends : List (ConnId × Bytes)) : Prop where
  posted : s'.posted = s.posted ++ sends
  calls : s'.calls = s.calls ++ sends.map sendCall

namespace Passed

theorem refl (s : ChatServer δ) : Passed s s [] :=
  ⟨(List.append_nil _).symm, (List.append_nil _).symm⟩

theorem trans {s s' s'' : ChatServer δ} {sends sends' : List (ConnId × Bytes)}
    (h : Passed s s' sends) (h' : Passed s' s'' sends') : Passed s s'' (sends ++ sends') := by
  constructor
  · rw [h'.posted, h.posted, List.append_assoc]
  · rw [h'.calls, h.calls, List.map_append, List.append_assoc]

theorem safeCommand (w : World δ) (s : ChatServer δ) (command : CacheCommand) :
    Passed s (safeCommand w s command) [] := by
  unfold ChatServer.safeCommand
  split
  · exact ⟨(List.append_nil _).symm, (List.append_nil _).symm⟩
  · exact refl s

theorem sendResponse (s : ChatServer δ) (c : ConnId) (command : CommandCode) (data : Bytes) :
    Passed s (s.sendResponse c command data)
      [(c, encode { version := VERSION, command, data })] :=
  ⟨rfl, rfl⟩

theorem deliver (w : World δ) (s : ChatServer δ) (fromId : Int32) (req : MessageRequest) :
    Passed s (deliver w s fromId req) (delivered w s fromId req) := by
  unfold ChatServer.deliver isUserOnline sendToUser delivered
  cases s.userToConn req.toId with
  | none => exact safeCommand w s _
  | some d =>
    rw [Option.isSome_some, if_pos rfl]
    dsimp only
    split
    · exact ⟨rfl, rfl⟩
    · exact refl s

theorem setDb (s : ChatServer δ) (db : δ) : Passed s { s with db } [] :=
  ⟨(List.append_nil _).symm, (List.append_nil _).symm⟩

theorem passedToSend {s s' : ChatServer δ} {sends : List (ConnId × Bytes)}
    (h : Passed s s' sends) : passedToSend s s' = sends :=
  passedToSend_eq h.posted

end Passed

/-- The outcome of a handler whose answers carry `command`: an error and nothing
else, or notifications and then SUCCESS. -/
inductive Responds (s : ChatServer δ) (c : ConnId) (command : CommandCode) : ChatServer δ → Prop
  | refused {errorCode : ErrorCode} {data : Bytes} (hcarries : Carries data errorCode)
      (herror : errorCode ≠ .success) : Responds s c command (s.sendResponse c command data)
  | accepted {t : ChatServer δ} {notified : List (ConnId × Bytes)} {data : Bytes}
      (hpassed : Passed s t notified) (hnotified : ∀ p ∈ notified, IsNotification s p)
      (hcarries : Carries data .success) : Responds s c command (t.sendResponse c command data)

/-- SUCCESS without notifications. -/
theorem Responds.accepted_quietly {s t : ChatServer δ} {c : ConnId} {command : CommandCode}
    {data : Bytes} (hpassed : Passed s t []) (hcarries : Carries data .success) :
    Responds s c command (t.sendResponse c command data) :=
  .accepted hpassed (fun _ hp => absurd hp List.not_mem_nil) hcarries

/-! ## Every handler answers once -/

theorem handleLogin_responds (w : World δ) (s : ChatServer δ) (c : ConnId) (req : LoginRequest) :
    Responds s c .loginResp (handleLogin w s c req) := by
  dsimp only [handleLogin]
  split
  · exact .refused (carries_loginResponse _) (by decide : ErrorCode.userNotFound ≠ .success)
  split
  · exact .refused (carries_loginResponse _)
      (by decide : ErrorCode.userAlreadyOnline ≠ .success)
  next user _ _ =>
    have hpassed := (Passed.safeCommand w ((s.setUserId c user.userId).setUserConnection
      user.userId c) (.setOnline user.userId true)).trans
      (Passed.safeCommand w _ (.setConnectionId user.userId c))
    exact .accepted_quietly ⟨hpassed.posted, hpassed.calls⟩ (carries_loginResponse _)

theorem handleChatMessage_responds (w : World δ) (s : ChatServer δ) (c : ConnId)
    (req : MessageRequest) : Responds s c .messageResp (handleChatMessage w s c req) := by
  dsimp only [handleChatMessage]
  split
  · exact .refused (carries_messageResponse _) (by decide : ErrorCode.protocolError ≠ .success)
  split
  · exact .refused (carries_messageResponse _) (by decide : ErrorCode.databaseError ≠ .success)
  next db _ _ =>
    have hpassed := Passed.deliver w { s with db } (s.conn c).userId req
    refine .accepted ⟨hpassed.posted, hpassed.calls⟩ (fun p hp => ?_) (carries_messageResponse _)
    exact notification_of_mem_delivered (s := { s with db }) hp

theorem handleFriendList_responds (w : World δ) (s : ChatServer δ) (c : ConnId) :
    Responds s c .friendListResp (handleFriendList w s c) := by
  dsimp only [handleFriendList]
  split
  · exact .refused (carries_friendListResponse _)
      (by decide : ErrorCode.protocolError ≠ .success)
  split
  · exact .refused (carries_friendListResponse _)
      (by decide : ErrorCode.databaseError ≠ .success)
  · exact .accepted_quietly (Passed.refl s) (carries_friendListResponse _)

theorem handleAddFriend_responds (w : World δ) (s : ChatServer δ) (c : ConnId)
    (req : AddFriendRequest) : Responds s c .addFriendResp (handleAddFriend w s c req) := by
  dsimp only [handleAddFriend]
  split
  · exact .refused (carries_addFriendResponse _) (by decide : ErrorCode.protocolError ≠ .success)
  split
  · exact .refused (carries_addFriendResponse _) (by decide : ErrorCode.cannotAddSelf ≠ .success)
  split
  · exact .refused (carries_addFriendResponse _) (by decide : ErrorCode.userNotFound ≠ .success)
  split
  · exact .refused (carries_addFriendResponse _)
      (by decide : ErrorCode.friendRequestExists ≠ .success)
  · exact .accepted_quietly (Passed.setDb s _) (carries_addFriendResponse _)

theorem handleRegister_responds (w : World δ) (s : ChatServer δ) (c : ConnId)
    (req : RegisterRequest) : Responds s c .registerResp (handleRegister w s c req) := by
  dsimp only [handleRegister]
  split
  · exact .refused (carries_registerResponse _) (by decide : ErrorCode.invalidRequest ≠ .success)
  split
  · exact .refused (carries_registerResponse _) (by decide : ErrorCode.usernameExists ≠ .success)
  split
  · exact .refused (carries_registerResponse _) (by decide : ErrorCode.databaseError ≠ .success)
  · exact .accepted_quietly (Passed.setDb s _) (carries_registerResponse _)

theorem handleSecurityQuestion_responds (w : World δ) (s : ChatServer δ) (c : ConnId)
    (req : SecurityQuestionRequest) :
    Responds s c .securityQuestionResp (handleSecurityQuestion w s c req) := by
  dsimp only [handleSecurityQuestion]
  split
  · exact .refused (carries_securityQuestionResponse _)
      (by decide : ErrorCode.invalidRequest ≠ .success)
  split
  · exact .refused (carries_securityQuestionResponse _)
      (by decide : ErrorCode.userNotFound ≠ .success)
  · exact .accepted_quietly (Passed.refl s) (carries_securityQuestionResponse _)

theorem handleResetPassword_responds (w : World δ) (s : ChatServer δ) (c : ConnId)
    (req : ResetPasswordRequest) :
    Responds s c .resetPasswordResp (handleResetPassword w s c req) := by
  dsimp only [handleResetPassword]
  split
  · exact .refused (carries_resetPasswordResponse _)
      (by decide : ErrorCode.invalidRequest ≠ .success)
  split
  · exact .refused (carries_resetPasswordResponse _)
      (by decide : ErrorCode.userNotFound ≠ .success)
  split
  · exact .refused (carries_resetPasswordResponse _)
      (by decide : ErrorCode.invalidAnswer ≠ .success)
  split
  · exact .refused (carries_resetPasswordResponse _)
      (by decide : ErrorCode.databaseError ≠ .success)
  · exact .accepted_quietly (Passed.setDb s _) (carries_resetPasswordResponse _)

/-- **Every request is answered once**, on its connection and with its command
plus one. -/
theorem handleRequest_responds (w : World δ) (s : ChatServer δ) (c : ConnId) (r : Request) :
    Responds s c (answerCommand r.command) (handleRequest w s c r) := by
  cases r with
  | login req => exact handleLogin_responds w s c req
  | message req => exact handleChatMessage_responds w s c req
  | friendList => exact handleFriendList_responds w s c
  | addFriend friendId => exact handleAddFriend_responds w s c _
  | register req => exact handleRegister_responds w s c req
  | securityQuestion req => exact handleSecurityQuestion_responds w s c req
  | resetPassword req => exact handleResetPassword_responds w s c req
  | versionCheck req =>
    exact .accepted_quietly (Passed.refl s) (carries_versionCheckResponse _)

/-! ## A failed request changes nothing -/

/-- The tables, the sessions and the cached entries are as they were. -/
structure Unchanged (s s' : ChatServer δ) : Prop where
  db : s'.db = s.db
  connections : s'.connections = s.connections
  userToConn : s'.userToConn = s.userToConn
  userId : ∀ c, (s'.conn c).userId = (s.conn c).userId
  cache : s'.cache = s.cache

/-- An answer with another error code than SUCCESS was passed to `send`. -/
def AnswersError (s s' : ChatServer δ) : Prop :=
  ∃ p ∈ passedToSend s s', isNotify p.2 = false ∧ errorCodeOf p.2 ≠ some .success

/-- Where the handler answers SUCCESS, it answers nothing else. -/
theorem Responds.unchanged {s s' : ChatServer δ} {c : ConnId} {command : CommandCode}
    (h : Responds s c command s') (herror : AnswersError s s') : Unchanged s s' := by
  cases h with
  | refused hcarries _ => exact ⟨rfl, rfl, rfl, fun _ => rfl, rfl⟩
  | accepted hpassed hnotified hcarries =>
    obtain ⟨p, hp, hnotify, hcode⟩ := herror
    rw [(hpassed.trans (Passed.sendResponse _ c command _)).passedToSend, List.mem_append,
      List.mem_singleton] at hp
    rcases hp with hp | rfl
    · rw [(hnotified p hp).1] at hnotify
      cases hnotify
    · exact absurd (errorCodeOf_encode hcarries) hcode

/-- **Failed requests change nothing**: a packet that is not decoded, and so gets
no answer, or that is answered with an error leaves everything as it was. -/
theorem unchanged_of_error {w : World δ} {s s' : ChatServer δ} {c : ConnId} {packet : Packet}
    (h : handleMessage w s c packet = some s')
    (hfail : decodeRequest packet = some none ∨ AnswersError s s') :
    Unchanged s s' ∧ (decodeRequest packet = some none → passedToSend s s' = []) := by
  obtain ⟨r, hr, rfl⟩ := handleMessage_eq_some.mp h
  cases r with
  | none =>
    refine ⟨⟨rfl, rfl, rfl, fun _ => rfl, rfl⟩, fun _ => ?_⟩
    exact passedToSend_eq (List.append_nil _).symm
  | some r =>
    rw [hr] at hfail ⊢
    refine ⟨?_, fun hnone => nomatch hnone⟩
    have hunchanged := (handleRequest_responds w (s.called c packet) c r).unchanged
      (hfail.resolve_left fun hnone => nomatch hnone)
    exact ⟨hunchanged.db, hunchanged.connections, hunchanged.userToConn, hunchanged.userId,
      hunchanged.cache⟩

/-- A login of somebody unknown. -/
theorem unchanged_of_error_login : ∃ s', handleMessage twoAccounts (.init ()) 1
      ⟨VERSION, .loginReq, [0, 1, 99, 0, 0]⟩ = some s'
    ∧ Unchanged (.init ()) s' := by
  have hrun : (handleMessage twoAccounts (.init ()) 1
      ⟨VERSION, .loginReq, [0, 1, 99, 0, 0]⟩).map (fun s' =>
        (passedToSend (.init ()) s').map fun p =>
          (isNotify p.2, (errorCodeOf p.2).map ErrorCode.toUInt16))
      = some [(false, some 1)] := by decide
  obtain ⟨s', hs', hsent⟩ := Option.map_eq_some_iff.mp hrun
  refine ⟨s', hs', (unchanged_of_error hs' (.inr ?_)).1⟩
  obtain ⟨p, hp, hshows⟩ := List.mem_map.mp (hsent ▸ List.mem_singleton_self (false, some 1))
  injection hshows with hnotify hcode
  refine ⟨p, hp, hnotify, fun hsuccess => ?_⟩
  rw [hsuccess] at hcode
  exact absurd hcode (by decide)

/-! ## Requests and answers over a run -/

/-- Everything but stops and notifications. -/
def Call.inExchange : Call → Bool
  | .handleMessage _ _ => true
  | .stop _ => false
  | .send _ data => !isNotify data

def exchanges (calls : List Call) : List Call :=
  calls.filter Call.inExchange

/-- Packets handed over, each of them that decodes followed by one answer: on the
same connection, with its command plus one. -/
inductive Paired : List Call → Prop
  | nil : Paired []
  | ignored {calls : List Call} {c : ConnId} {packet : Packet} (h : Paired calls)
      (hnone : decodeRequest packet = some none) : Paired (calls ++ [.handleMessage c packet])
  | answered {calls : List Call} {c : ConnId} {packet : Packet} {r : Request} {data : Bytes}
      (h : Paired calls) (hsome : decodeRequest packet = some (some r))
      (hnotify : isNotify data = false)
      (hcommand : commandOf data = some (answerCommand packet.command)) :
      Paired (calls ++ [.handleMessage c packet, .send c data])

/-- The requests handed over on a connection: the packets that decode. -/
def requestsOn (c : ConnId) (calls : List Call) : List Packet :=
  calls.filterMap fun
    | .handleMessage d packet =>
      if d = c ∧ (decodeRequest packet).join.isSome then some packet else none
    | _ => none

/-- What was passed to `send` on a connection, other than notifications. -/
def answersOn (c : ConnId) (calls : List Call) : List Bytes :=
  calls.filterMap fun
    | .send d data => if d = c ∧ isNotify data = false then some data else none
    | _ => none

/-- Every command that decodes is its request's. -/
theorem command_of_decodeRequest {packet : Packet} {r : Request}
    (h : decodeRequest packet = some (some r)) : packet.command = r.command := by
  have hmap : ∀ {α : Type} {x : Access (Option α)} {f : α → Request},
      x.map (Option.map f) = some (some r) → ∃ a, r = f a := by
    intro α x f hx
    obtain ⟨y, _, hy⟩ := Option.map_eq_some_iff.mp hx
    obtain ⟨a, _, ha⟩ := Option.map_eq_some_iff.mp hy
    exact ⟨a, ha.symm⟩
  unfold decodeRequest at h
  split at h
  next hcommand =>
    obtain ⟨_, rfl⟩ := hmap h
    exact hcommand
  split at h
  next hcommand =>
    obtain ⟨_, rfl⟩ := hmap h
    exact hcommand
  split at h
  next hcommand =>
    cases h
    exact hcommand
  split at h
  next hcommand =>
    -- ADD_FRIEND_REQ has no decoder of its own, only a check for four bytes.
    split at h
    · obtain ⟨_, _, hr⟩ := Option.map_eq_some_iff.mp h
      cases hr
      exact hcommand
    · cases h
  split at h
  next hcommand =>
    obtain ⟨_, rfl⟩ := hmap h
    exact hcommand
  split at h
  next hcommand =>
    obtain ⟨_, rfl⟩ := hmap h
    exact hcommand
  split at h
  next hcommand =>
    obtain ⟨_, rfl⟩ := hmap h
    exact hcommand
  split at h
  next hcommand =>
    obtain ⟨_, rfl⟩ := hmap h
    exact hcommand
  · cases h

theorem answerCommand_ne_messageNotify (r : Request) :
    answerCommand r.command ≠ .messageNotify := by
  cases r <;> simp only [Request.command] <;> decide

/-- Whatever the outcome, the answer comes last, after notifications. -/
theorem Responds.passed {s s' : ChatServer δ} {c : ConnId} {command : CommandCode}
    (h : Responds s c command s') : ∃ notified data, (∀ p ∈ notified, IsNotification s p)
      ∧ Passed s s' (notified ++ [(c, encode { version := VERSION, command, data })]) := by
  cases h with
  | refused hcarries _ =>
    exact ⟨[], _, fun _ hp => absurd hp List.not_mem_nil, Passed.sendResponse s c command _⟩
  | accepted hpassed hnotified hcarries =>
    exact ⟨_, _, hnotified, hpassed.trans (Passed.sendResponse _ c command _)⟩

/-- Besides the answer, everything passed to `send` is a notification. -/
theorem Responds.commandOf_passed {s s' : ChatServer δ} {c : ConnId} {command : CommandCode}
    (h : Responds s c command s') {p : ConnId × Bytes} (hp : p ∈ passedToSend s s') :
    commandOf p.2 = some .messageNotify ∨ commandOf p.2 = some command := by
  obtain ⟨notified, data, hnotified, hpassed⟩ := h.passed
  rw [hpassed.passedToSend, List.mem_append, List.mem_singleton] at hp
  rcases hp with hp | rfl
  · exact Or.inl (isNotify_iff.mp (hnotified p hp).1)
  · exact Or.inr (commandOf_encode command data)

theorem exchanges_append (calls calls' : List Call) :
    exchanges (calls ++ calls') = exchanges calls ++ exchanges calls' :=
  List.filter_append ..

theorem exchanges_notified {notified : List (ConnId × Bytes)}
    (h : ∀ p ∈ notified, isNotify p.2 = true) : exchanges (notified.map sendCall) = [] := by
  refine List.filter_eq_nil_iff.mpr fun call hcall => ?_
  obtain ⟨p, hp, rfl⟩ := List.mem_map.mp hcall
  simp [sendCall, Call.inExchange, h p hp]

section

variable {wiring : Wiring} {s s' : ChatServer δ} {e : Event δ}

theorem exchanges_loopCalls (he : ∀ c body w, e ≠ .readBody c body w) :
    exchanges (loopCalls s e) = [] := by
  unfold loopCalls
  split
  next c body w => exact absurd rfl (he c body w)
  · split <;> rfl

theorem step_paired (hs : Paired (exchanges s.calls)) (h : step wiring s e = some s') :
    Paired (exchanges s'.calls) := by
  rcases e.readBody_or_ne with ⟨c, body, w, rfl⟩ | he
  · obtain ⟨_, _, packet, r, _, hr, rfl⟩ := step_readBody.mp h
    have hcalled : exchanges ((s.bodyRead c body).called c packet).calls
        = exchanges s.calls ++ [.handleMessage c packet] := exchanges_append ..
    cases r with
    | none =>
      show Paired (exchanges ((s.bodyRead c body).called c packet).calls)
      rw [hcalled]
      exact .ignored hs hr
    | some r =>
      obtain ⟨notified, data, hnotified, hpassed⟩ :=
        (handleRequest_responds w ((s.bodyRead c body).called c packet) c r).passed
      have hnotify : isNotify (encode
          { version := VERSION, command := answerCommand r.command, data }) = false := by
        rw [isNotify_encode]
        exact decide_eq_false (answerCommand_ne_messageNotify r)
      show Paired (exchanges (handleRequest w ((s.bodyRead c body).called c packet) c r).calls)
      rw [hpassed.calls, exchanges_append, hcalled, List.map_append, exchanges_append,
        exchanges_notified fun p hp => (hnotified p hp).1, List.nil_append, List.append_assoc]
      -- What is left of the dispatch is the packet and its answer.
      have hanswer : exchanges ([(c, encode
          { version := VERSION, command := answerCommand r.command, data })].map sendCall)
          = [.send c (encode
            { version := VERSION, command := answerCommand r.command, data })] := by
        simp [exchanges, sendCall, Call.inExchange, hnotify]
      rw [hanswer]
      refine .answered hs hr hnotify ?_
      rw [commandOf_encode, command_of_decodeRequest hr]
  · rw [(step_quiet h he).1, exchanges_append, exchanges_loopCalls he, List.append_nil]
    exact hs

end

/-- In a paired log the answers on a connection are those of its requests. -/
theorem Paired.answersOn {calls : List Call} (h : Paired calls) (c : ConnId) :
    (answersOn c calls).map commandOf
      = (requestsOn c calls).map fun packet => some (answerCommand packet.command) := by
  induction h with
  | nil => rfl
  | ignored _ hnone ih =>
    unfold Server.answersOn requestsOn at ih ⊢
    simp [ih, hnone]
  | @answered _ d packet r data _ hsome hnotify hcommand ih =>
    unfold Server.answersOn requestsOn at ih ⊢
    by_cases hd : d = c
    · simp [ih, hd, hsome, hnotify, hcommand]
    · simp [ih, hd]

theorem answersOn_exchanges (c : ConnId) (calls : List Call) :
    answersOn c (exchanges calls) = answersOn c calls := by
  unfold answersOn exchanges
  rw [List.filterMap_filter]
  refine congrArg (List.filterMap · calls) (funext fun call => ?_)
  cases call with
  | handleMessage d packet => rfl
  | stop d => rfl
  | send d data =>
    cases hnotify : isNotify data <;> simp [Call.inExchange, hnotify]

theorem requestsOn_exchanges (c : ConnId) (calls : List Call) :
    requestsOn c (exchanges calls) = requestsOn c calls := by
  unfold requestsOn exchanges
  rw [List.filterMap_filter]
  refine congrArg (List.filterMap · calls) (funext fun call => ?_)
  cases call with
  | handleMessage d packet => rfl
  | stop d => rfl
  | send d data => simp

/-- **Requests and answers pair up**: in every run each packet that decodes is
followed by one answer on its connection, other packets by none, and nothing but
notifications is sent besides; so the answers on a connection carry the commands
of its requests plus one, in order. -/
theorem answers_paired {wiring : Wiring} {db : δ} {evs : List (Event δ)} {s : ChatServer δ}
    (h : exec (step wiring) (.init db) evs = some s) :
    Paired (exchanges s.calls) ∧ ∀ c, (answersOn c s.calls).map commandOf
      = (requestsOn c s.calls).map fun packet => some (answerCommand packet.command) := by
  have hpaired : Paired (exchanges s.calls) :=
    exec_induction (P := fun _ s => Paired (exchanges s.calls))
      (show Paired (exchanges (ChatServer.init db).calls) from .nil)
      (fun hs hstep => step_paired hs hstep) h
  refine ⟨hpaired, fun c => ?_⟩
  rw [← answersOn_exchanges, ← requestsOn_exchanges]
  exact hpaired.answersOn c

/-- User 1 logs in, and user 2 sends user 1 a message: a notification stands
between the message and its answer. -/
theorem answers_paired_notified : ∃ s, exec (step .started) (.init ())
      (.accept 1 :: loginA 1 ++ .accept 2 :: loginB 2
        ++ received 2 twoAccounts (.message { toId := 1, content := [104, 105] })) = some s
    ∧ (answersOn 2 s.calls).map commandOf = [some .loginResp, some .messageResp]
    ∧ Paired (exchanges s.calls) := by
  have hrun : (exec (step .started) (.init ())
      (.accept 1 :: loginA 1 ++ .accept 2 :: loginB 2
        ++ received 2 twoAccounts (.message { toId := 1, content := [104, 105] }))).map
        (fun s => (requestsOn 2 s.calls).map Packet.command)
      = some [.loginReq, .messageReq] := by decide
  obtain ⟨s, hs, hrequests⟩ := Option.map_eq_some_iff.mp hrun
  obtain ⟨hpaired, hanswers⟩ := answers_paired hs
  refine ⟨s, hs, ?_, hpaired⟩
  rw [hanswers 2]
  show (requestsOn 2 s.calls).map ((some ∘ answerCommand) ∘ Packet.command) = _
  rw [← List.map_map, hrequests]
  rfl

end QQChat.Server
