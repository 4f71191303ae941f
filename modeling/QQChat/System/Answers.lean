import QQChat.System.Wires

/-!
# Answers, from the handlers to the callbacks

The two halves of `System.Wires` joined: the requests that a client makes are handed
over in order, each is answered once, and what comes back leads to calls of the
client's callbacks. Whatever the interleaving of the clients, the server and the
network, and however the streams are cut:

* the callbacks of a client, other than for messages, are called in the order of its
  requests, once for each that is answered, and none is called that was not asked for;
* nothing is dropped on the way: when nothing is in flight any more, all of them have
  been called;
* neither side reads outside a buffer, although either side's decoders can be made to.

The first friend list request is the end of this: its frame has no body, and the server
reads nothing behind it (`readable`). What the database answers must fit its length
field (`TextsFit`); the pool's buffers see to that (`System.textsFit_world`).
-/

namespace QQChat

open Trace

/-! ## What a packet leads to -/

namespace Client

/-- The call that a packet leads to, were every callback set. -/
def invocationOf (packet : Bytes) : Access (Option Invocation) := do
  let some (command, data) ← decode packet | return none
  Callbacks.invocation command data

/-- The callback that a packet is for. -/
def slotOf (packet : Bytes) : Option Slot :=
  (invocationOf packet).join.map Invocation.slot

/-- The command that leads to a callback. -/
def Slot.command : Slot → CommandCode
  | .loginCallback => .loginResp
  | .messageCallback => .messageNotify
  | .friendListCallback => .friendListResp
  | .registerCallback => .registerResp
  | .securityQuestionCallback => .securityQuestionResp
  | .resetPasswordCallback => .resetPasswordResp
  | .versionCheckCallback => .versionCheckResp

theorem Callbacks.handlePacket_eq (callbacks : Callbacks) (packet : Bytes) :
    callbacks.handlePacket packet
      = (invocationOf packet).map fun result => result.elim [] callbacks.invoke := by
  unfold handlePacket invocationOf
  cases hdecode : decode packet with
  | none => rfl
  | some decoded =>
    cases decoded with
    | none => rfl
    | some p =>
      show (Callbacks.invocation p.1 p.2).bind _ = (Callbacks.invocation p.1 p.2).map _
      cases hinv : Callbacks.invocation p.1 p.2 with
      | none => rfl
      | some result => cases result <;> rfl

/-- A packet is for the callback of its command. -/
theorem command_of_invocation {command : CommandCode} {data : Bytes} {invocation : Invocation}
    (h : Callbacks.invocation command data = some (some invocation)) :
    command = invocation.slot.command := by
  unfold Callbacks.invocation at h
  split at h
  next hcommand =>
    obtain ⟨resp, _, h⟩ := Option.bind_eq_some_iff.mp h
    cases resp <;> cases h
    exact hcommand
  split at h
  next hcommand =>
    obtain ⟨resp, _, h⟩ := Option.bind_eq_some_iff.mp h
    cases resp <;> cases h
    exact hcommand
  split at h
  next hcommand =>
    obtain ⟨⟨accepted, friends⟩, _, h⟩ := Option.bind_eq_some_iff.mp h
    cases accepted <;> cases h
    exact hcommand
  split at h
  next hcommand =>
    obtain ⟨resp, _, h⟩ := Option.bind_eq_some_iff.mp h
    cases resp <;> cases h
    exact hcommand
  split at h
  next hcommand =>
    obtain ⟨resp, _, h⟩ := Option.bind_eq_some_iff.mp h
    cases resp <;> cases h
    exact hcommand
  split at h
  next hcommand =>
    obtain ⟨resp, _, h⟩ := Option.bind_eq_some_iff.mp h
    cases resp <;> cases h
    exact hcommand
  split at h
  next hcommand =>
    obtain ⟨resp, _, h⟩ := Option.bind_eq_some_iff.mp h
    cases resp <;> cases h
    exact hcommand
  · cases h

/-- What `decode` accepts is a frame, and carries the command. -/
theorem isFrame_of_decode {packet : Bytes} {command : CommandCode} {data : Bytes}
    (h : decode packet = some (some (command, data))) :
    wire.IsFrame packet ∧ Server.commandOf packet = some command := by
  unfold decode at h
  split at h
  · cases h
  next hsize =>
    have hheader : HEADER_SIZE ≤ packet.length := Nat.le_of_not_lt hsize
    obtain ⟨length, hlength, htotal⟩ := readUint32_header hheader
    obtain ⟨code, hcode, h⟩ := Option.bind_eq_some_iff.mp h
    rw [hlength] at h
    change (if packet.length ≠ HEADER_SIZE + length.toNat then _ else _) = _ at h
    split at h
    · cases h
    next heq =>
      cases h
      rw [htotal] at heq
      refine ⟨⟨hheader, Classical.not_not.mp heq⟩, ?_⟩
      unfold Server.commandOf
      rw [hcode]
      rfl

/-- What leads to a call is a frame with the command of the callback. -/
theorem isFrame_of_invocationOf {packet : Bytes} {invocation : Invocation}
    (h : invocationOf packet = some (some invocation)) :
    wire.IsFrame packet ∧ Server.commandOf packet = some invocation.slot.command := by
  obtain ⟨decoded, hdecode, h⟩ := Option.bind_eq_some_iff.mp h
  cases decoded with
  | none => cases h
  | some p =>
    rw [← command_of_invocation h]
    exact isFrame_of_decode hdecode

end Client

namespace System

open Client Server ChatServer

variable {δ : Type}

/-- A buffer that the client can do with what it should: it is one frame, `handle_packet`
reads it in bounds, and calls the message callback for a notification only. -/
structure Intelligible (buffer : Bytes) : Prop where
  isFrame : wire.IsFrame buffer
  isSome : (invocationOf buffer).isSome
  isNotify : isNotify buffer = true ↔ slotOf buffer = some .messageCallback

theorem isNotify_iff_slot {buffer : Bytes} {invocation : Invocation}
    (h : invocationOf buffer = some (some invocation)) :
    isNotify buffer = true ↔ invocation.slot = .messageCallback := by
  rw [isNotify_iff, (isFrame_of_invocationOf h).2]
  cases invocation.slot <;> simp only [Slot.command] <;> decide

theorem slotOf_eq {buffer : Bytes} {invocation : Invocation}
    (h : invocationOf buffer = some (some invocation)) :
    slotOf buffer = some invocation.slot := by
  unfold slotOf
  rw [h]
  rfl

/-- What leads to a call is intelligible. -/
theorem intelligible_of_invocationOf {buffer : Bytes} {invocation : Invocation}
    (h : invocationOf buffer = some (some invocation)) : Intelligible buffer where
  isFrame := (isFrame_of_invocationOf h).1
  isSome := by
    rw [h]
    rfl
  isNotify := by rw [isNotify_iff_slot h, slotOf_eq h, Option.some_inj]

theorem invocationOf_encode {command : CommandCode} {data : Bytes} {result : Option Invocation}
    (hlen : data.length < 2 ^ 32) (h : Callbacks.invocation command data = some result) :
    invocationOf (Server.encode { version := VERSION, command, data }) = some result := by
  unfold invocationOf
  rw [Client.decode_frame, if_pos hlen]
  exact h

/-- So is a response that there is no case for. -/
theorem intelligible_of_no_case {command : CommandCode} {data : Bytes}
    (hlen : data.length < 2 ^ 32) (h : Callbacks.invocation command data = some none)
    (hcommand : command ≠ .messageNotify) :
    Intelligible (Server.encode { version := VERSION, command, data })
      ∧ slotOf (Server.encode { version := VERSION, command, data }) = none := by
  have hinvocation := invocationOf_encode hlen h
  have hslot : slotOf (Server.encode { version := VERSION, command, data }) = none := by
    unfold slotOf
    rw [hinvocation]
    rfl
  refine ⟨⟨?_, ?_, ?_⟩, hslot⟩
  · have hdecode := Client.decode_frame { version := VERSION, command, data }
    rw [if_pos hlen] at hdecode
    exact (isFrame_of_decode hdecode).1
  · rw [hinvocation]
    rfl
  · rw [isNotify_encode, decide_eq_true_iff, hslot]
    exact iff_of_false hcommand (fun heq => by cases heq)

/-! ## What the handlers send -/

/-- The texts that the database answers fit their length fields. -/
structure TextsFit (w : World δ) : Prop where
  username : ∀ {db username password user},
    w.db.verifyUser db username password = some user → user.username.length ≤ 65535
  question : ∀ {db username question answerHash},
    w.db.getSecurityQuestion db username = some (question, answerHash) → question.length ≤ 65535

/-- A request that a client of ours can have dispatched. -/
def Dispatchable : Request → Prop
  | .friendList => False
  | .message req => req.content.length < 2 ^ 20
  | _ => True

/-- A dispatch passes notifications to `send`, and then one answer, which is for the
callback in `slot` or for none. -/
structure Answers (s s' : ChatServer δ) (c : ConnId) (slot : Option Slot)
    (notified : List (ConnId × Bytes)) (answer : Bytes) : Prop where
  passed : Passed s s' (notified ++ [(c, answer)])
  notified : ∀ p ∈ notified, Intelligible p.2 ∧ isNotify p.2 = true
  intelligible : Intelligible answer
  isNotify : isNotify answer = false
  slotOf : slotOf answer = slot

theorem passed_of_passedToSend {s s' : ChatServer δ} {c : ConnId} {command : CommandCode}
    (h : Responds s c command s') : Passed s s' (passedToSend s s') := by
  obtain ⟨notified, data, _, hpassed⟩ := h.passed
  rw [hpassed.passedToSend]
  exact hpassed

/-- An answer that reaches its callback is an answer. -/
theorem answers_of_reaches {s s' : ChatServer δ} {c : ConnId} {command : CommandCode}
    {slot : Slot} (hresponds : Responds s c command s') (hslot : slot ≠ .messageCallback)
    (h : Reaches (fun _ => false) slot c s s') :
    ∃ notified answer, Answers s s' c (some slot) notified answer := by
  obtain ⟨answer, _, invocation, hpassed, _, hcall, rfl, _⟩ := h
  have hinvocation : invocationOf answer = some (some invocation) := by
    rw [Callbacks.handlePacket_eq] at hcall
    obtain ⟨result, hresult, hcall⟩ := Option.map_eq_some_iff.mp hcall
    cases result with
    | none => cases hcall
    | some called =>
      have hmem : invocation ∈ Callbacks.invoke _ called := hcall ▸ List.mem_singleton_self _
      unfold Callbacks.invoke at hmem
      split at hmem
      · rw [hresult, List.mem_singleton.mp hmem]
      · cases hmem
  refine ⟨[], answer, ?_, fun _ hp => absurd hp List.not_mem_nil,
    intelligible_of_invocationOf hinvocation, ?_, slotOf_eq hinvocation⟩
  · rw [List.nil_append, ← hpassed]
    exact passed_of_passedToSend hresponds
  · rw [Bool.eq_false_iff, ne_eq, isNotify_iff_slot hinvocation]
    exact hslot

theorem invocation_notification (notify : MessageNotify)
    (hlen : notify.content.length < 2 ^ 20) :
    invocationOf (notification notify.fromId notify.content notify.timestamp)
      = some (some (.message notify.fromId notify.content notify.timestamp)) := by
  refine invocationOf_encode ?_ ?_
  · rw [encodeMessageNotify_eq]
    simp only [List.length_append, BigEndian.length_toBytes]
    omega
  · have hlogin : CommandCode.messageNotify ≠ .loginResp := by decide
    rw [Callbacks.invocation, if_neg hlogin, if_pos rfl,
      decodeMessageNotify_encode notify (by omega)]
    rfl

section

variable {w : World δ} {s : ChatServer δ} {c : ConnId}

theorem handleChatMessage_answers (req : MessageRequest) (hlen : req.content.length < 2 ^ 20) :
    ∃ notified answer, Answers s (handleChatMessage w s c req) c none notified answer := by
  have hanswer : ∀ errorCode msgId, Intelligible (chatAnswer errorCode msgId)
      ∧ slotOf (chatAnswer errorCode msgId) = none := fun errorCode msgId => by
    refine intelligible_of_no_case ?_ rfl (by decide)
    simp only [encodeMessageResponse, writeUint16_eq, writeInt32_eq, List.nil_append,
      List.length_append, BigEndian.length_toBytes]
    decide
  rcases handleChatMessage_cases w s c req with
    ⟨_, db, msgId, _, heq⟩ | ⟨_, errorCode, msgId, _, heq⟩
  · obtain ⟨hintelligible, hslot⟩ := hanswer .success msgId
    have hdelivered := Passed.deliver w { s with db } (s.conn c).userId req
    refine ⟨delivered w { s with db } (s.conn c).userId req, chatAnswer .success msgId, ?_,
      fun p hp => ?_, hintelligible, isNotify_chatAnswer .success msgId, hslot⟩
    · rw [heq]
      exact Passed.trans ⟨hdelivered.posted, hdelivered.calls⟩ (Passed.sendResponse _ c _ _)
    · have hnotification := notification_of_mem_delivered hp
      refine ⟨?_, hnotification.1⟩
      unfold delivered at hp
      split at hp
      · cases hp
      · split at hp
        · rw [List.mem_singleton.mp hp]
          exact intelligible_of_invocationOf (invocation_notification ⟨_, _, _⟩ hlen)
        · cases hp
  · obtain ⟨hintelligible, hslot⟩ := hanswer errorCode msgId
    refine ⟨[], chatAnswer errorCode msgId, ?_, fun _ hp => absurd hp List.not_mem_nil,
      hintelligible, isNotify_chatAnswer errorCode msgId, hslot⟩
    rw [heq]
    exact Passed.sendResponse s c _ _

theorem answers_addFriendResponse {t : ChatServer δ} (hpassed : Passed s t [])
    (resp : AddFriendResponse) : ∃ notified answer,
      Answers s (t.sendResponse c .addFriendResp (encodeAddFriendResponse resp)) c none
        notified answer := by
  have hlen : (encodeAddFriendResponse resp).length < 2 ^ 32 := by
    simp only [encodeAddFriendResponse, writeUint16_eq, List.nil_append, BigEndian.length_toBytes]
    decide
  have hcommand : CommandCode.addFriendResp ≠ .messageNotify := by decide
  obtain ⟨hintelligible, hslot⟩ := intelligible_of_no_case hlen rfl hcommand
  exact ⟨[], _, hpassed.trans (Passed.sendResponse t c _ _), fun _ hp => absurd hp List.not_mem_nil,
    hintelligible, isNotify_encode .., hslot⟩

theorem handleAddFriend_answers (req : AddFriendRequest) :
    ∃ notified answer, Answers s (handleAddFriend w s c req) c none notified answer := by
  dsimp only [handleAddFriend]
  split
  · exact answers_addFriendResponse (Passed.refl s) _
  split
  · exact answers_addFriendResponse (Passed.refl s) _
  split
  · exact answers_addFriendResponse (Passed.refl s) _
  split
  · exact answers_addFriendResponse (Passed.refl s) _
  · exact answers_addFriendResponse (Passed.setDb s _) _

/-- **Every dispatch is answered intelligibly.** -/
theorem handleRequest_answers (hw : TextsFit w) {r : Request} (hr : Dispatchable r) :
    ∃ notified answer, Answers s (handleRequest w s c r) c r.slot notified answer := by
  have hresponds := handleRequest_responds w s c r
  cases r with
  | login req =>
    refine answers_of_reaches hresponds (by decide) ?_
    refine (handleLogin_reaches_iff _ w s c req).mpr fun user huser _ => ?_
    have hfits := hw.username huser
    omega
  | message req => exact handleChatMessage_answers req hr
  | friendList => exact absurd hr id
  | addFriend friendId => exact handleAddFriend_answers _
  | register req =>
    exact answers_of_reaches hresponds (by decide) (handleRegister_reaches _ w s c req)
  | securityQuestion req =>
    refine answers_of_reaches hresponds (by decide) ?_
    refine (handleSecurityQuestion_reaches_iff _ w s c req).mpr fun question _ _ hquestion => ?_
    have hfits := hw.question hquestion
    omega
  | resetPassword req =>
    exact answers_of_reaches hresponds (by decide) (handleResetPassword_reaches _ w s c req)
  | versionCheck req =>
    exact answers_of_reaches hresponds (by decide) (handleVersionCheck_reaches _ s c req)

end

/-! ## Over a run of the server -/

/-- The callback that is called for the answer to a packet. -/
def expectedSlot (packet : Packet) : Option Slot :=
  (decodeRequest packet).join.bind Request.slot

/-- All that was sent is intelligible, and the answers on a connection are for the
callbacks of its requests. -/
structure Answering (calls : List Call) : Prop where
  sends : ∀ p ∈ sendsOf calls, Intelligible p.2
  answers : ∀ c, (answersOn c calls).map slotOf = (requestsOn c calls).map expectedSlot

theorem requestsOn_append (c : ConnId) (calls calls' : List Call) :
    requestsOn c (calls ++ calls') = requestsOn c calls ++ requestsOn c calls' :=
  List.filterMap_append ..

theorem answersOn_append (c : ConnId) (calls calls' : List Call) :
    answersOn c (calls ++ calls') = answersOn c calls ++ answersOn c calls' :=
  List.filterMap_append ..

/-- The requests are the packets that decode. -/
theorem requestsOn_eq (c : ConnId) (calls : List Call) : requestsOn c calls
    = (handledOn c calls).filter fun packet => (decodeRequest packet).join.isSome := by
  unfold requestsOn handledOn
  rw [List.filter_filterMap]
  refine congrArg (List.filterMap · calls) (funext fun call => ?_)
  cases call with
  | handleMessage d packet =>
    by_cases hd : d = c
    · by_cases hsome : (decodeRequest packet).join.isSome = true <;>
        simp [hd, hsome, Option.filter]
    · simp [hd]
  | stop d => rfl
  | send d data => rfl

/-- The answers are the buffers for the connection other than notifications. -/
theorem answersOn_eq (c : ConnId) (calls : List Call) :
    answersOn c calls = (buffersOn c (sendsOf calls)).filter fun b => !isNotify b := by
  unfold answersOn buffersOn sendsOf
  rw [List.filter_filterMap, List.map_filterMap, List.filter_filterMap]
  refine congrArg (List.filterMap · calls) (funext fun call => ?_)
  cases call with
  | handleMessage d packet => rfl
  | stop d => rfl
  | send d data =>
    by_cases hd : d = c
    · cases hnotify : isNotify data <;> simp [hd, hnotify, Option.filter]
    · simp [hd, Option.filter]

section

variable {wiring : Wiring} {s s' : ChatServer δ} {e : Server.Event δ}

/-- The requests and the answers that a dispatch adds: one packet, and what was sent. -/
theorem requestsOn_dispatch (c d : ConnId) (calls : List Call) (packet : Packet)
    (sends : List (ConnId × Bytes)) :
    requestsOn d (calls ++ .handleMessage c packet :: sends.map sendCall)
      = requestsOn d calls ++ requestsOn d [.handleMessage c packet] := by
  have hnone : requestsOn d (sends.map sendCall) = [] := by
    rw [requestsOn_eq, show handledOn d (sends.map sendCall) = [] from handledOn_sends d sends]
    rfl
  rw [← List.singleton_append, requestsOn_append, requestsOn_append, hnone, List.append_nil]

theorem answersOn_dispatch (c d : ConnId) (calls : List Call) (packet : Packet)
    (sends : List (ConnId × Bytes)) :
    answersOn d (calls ++ .handleMessage c packet :: sends.map sendCall)
      = answersOn d calls ++ answersOn d (sends.map sendCall) := by
  rw [answersOn_append]
  rfl

/-- Notifications are no answers. -/
theorem answersOn_sends {notified : List (ConnId × Bytes)} {answer : Bytes}
    (hnotified : ∀ p ∈ notified, isNotify p.2 = true) (hanswer : isNotify answer = false)
    (c d : ConnId) : answersOn d ((notified ++ [(c, answer)]).map sendCall)
      = if c = d then [answer] else [] := by
  have hnone : answersOn d (notified.map sendCall) = [] := by
    refine List.filterMap_eq_nil_iff.mpr fun call hcall => ?_
    obtain ⟨p, hp, rfl⟩ := List.mem_map.mp hcall
    simp [sendCall, hnotified p hp]
  rw [List.map_append, answersOn_append, hnone, List.nil_append]
  by_cases hd : c = d
  · simp [answersOn, sendCall, hd, hanswer]
  · simp [answersOn, sendCall, hd]

/-- Nothing but a dispatch handles packets, or sends. -/
theorem calls_of_quiet (h : Server.step wiring s e = some s')
    (hne : ∀ c body w, e ≠ .readBody c body w) (d : ConnId) :
    requestsOn d s'.calls = requestsOn d s.calls ∧ answersOn d s'.calls = answersOn d s.calls := by
  have hloop : ∀ call ∈ loopCalls s e, ∃ c, call = .stop c := by
    intro call hcall
    unfold loopCalls at hcall
    split at hcall
    next c body w => exact absurd rfl (hne c body w)
    · split at hcall
      · exact ⟨_, List.mem_singleton.mp hcall⟩
      · cases hcall
  have hrequests : requestsOn d (loopCalls s e) = [] := by
    refine List.filterMap_eq_nil_iff.mpr fun call hcall => ?_
    obtain ⟨_, rfl⟩ := hloop call hcall
    rfl
  have hanswers : answersOn d (loopCalls s e) = [] := by
    refine List.filterMap_eq_nil_iff.mpr fun call hcall => ?_
    obtain ⟨_, rfl⟩ := hloop call hcall
    rfl
  rw [(step_quiet h hne).1, answersOn_append, requestsOn_append, hrequests, hanswers,
    List.append_nil, List.append_nil]
  exact ⟨rfl, rfl⟩

theorem answering_sends {calls : List Call} (hs : Answering calls)
    {sends : List (ConnId × Bytes)} {c : ConnId} {packet : Packet}
    (hsends : ∀ p ∈ sends, Intelligible p.2)
    (hanswers : ∀ d, (answersOn d (sends.map sendCall)).map slotOf
      = (requestsOn d [.handleMessage c packet]).map expectedSlot) :
    Answering (calls ++ .handleMessage c packet :: sends.map sendCall) := by
  refine ⟨fun p hp => ?_, fun d => ?_⟩
  · rw [sendsOf_append] at hp
    rcases List.mem_append.mp hp with hp | hp
    · exact hs.sends p hp
    · rw [show sendsOf (.handleMessage c packet :: sends.map sendCall) = sends from
        sendsOf_map sends] at hp
      exact hsends p hp
  · rw [answersOn_dispatch, requestsOn_dispatch, List.map_append, List.map_append, hs.answers d,
      hanswers d]

/-- A step keeps `Answering`, if what it dispatches is a request of ours. -/
theorem step_answering (hs : Answering s.calls) (h : Server.step wiring s e = some s')
    (he : ∀ c body w, e = .readBody c body w → TextsFit w
      ∧ ∀ packet ∈ handledOn c (loopCalls s e), ∀ r, decodeRequest packet = some (some r) →
        Dispatchable r) : Answering s'.calls := by
  rcases e.readBody_or_ne with ⟨c, body, w, rfl⟩ | hne
  · obtain ⟨_, _, packet, r, hpacket, hr, rfl⟩ := step_readBody.mp h
    obtain ⟨hw, hdispatchable⟩ := he c body w rfl
    have hmem : packet ∈ handledOn c (loopCalls s (.readBody c body w)) := by
      dsimp only [loopCalls]
      rw [hpacket]
      simp [handledOn]
    cases r with
    | none =>
      -- No handler is called, and no answer sent.
      have hnone : ∀ p ∈ ([] : List (ConnId × Bytes)), Intelligible p.2 :=
        fun p hp => absurd hp List.not_mem_nil
      refine answering_sends (c := c) hs hnone fun d => ?_
      simp [answersOn, requestsOn, hr]
    | some r =>
      obtain ⟨notified, answer, hanswers⟩ := handleRequest_answers
        (s := (s.bodyRead c body).called c packet) (c := c) hw (hdispatchable packet hmem r hr)
      show Answering (handleRequest w ((s.bodyRead c body).called c packet) c r).calls
      rw [hanswers.passed.calls]
      show Answering ((s.calls ++ [.handleMessage c packet]) ++ _)
      rw [List.append_assoc, List.singleton_append]
      refine answering_sends hs (fun p hp => ?_) fun d => ?_
      · rcases List.mem_append.mp hp with hp | hp
        · exact (hanswers.notified p hp).1
        · rw [List.mem_singleton.mp hp]
          exact hanswers.intelligible
      · rw [answersOn_sends (fun p hp => (hanswers.notified p hp).2) hanswers.isNotify]
        by_cases hd : c = d
        · simp [requestsOn, hd, hanswers.slotOf, hr, expectedSlot]
        · simp [requestsOn, hd]
  · refine ⟨fun p hp => ?_, fun d => ?_⟩
    · rw [(step_quiet h hne).1, sendsOf_append, sendsOf_loopCalls, List.append_nil] at hp
      exact hs.sends p hp
    · obtain ⟨hrequests, hanswers⟩ := calls_of_quiet h hne d
      rw [hanswers, hrequests]
      exact hs.answers d

end

/-! ## Over a run of the system -/

/-- Requests are shorter than 4 GiB, and the texts that the database answers fit. -/
def Event.Bounded : Event δ → Prop
  | .server (.readBody _ _ w) _ => TextsFit w
  | .request _ r => r.body.length < 2 ^ 32
  | _ => True

theorem slot_congr {r r' : Request} (h : r.command = r'.command) : r.slot = r'.slot := by
  cases r <;> cases r' <;>
    first
    | rfl
    | exact absurd h (by simp only [Request.command]; decide)

/-- The content of a message that the server reads is as long as the client made it. -/
theorem content_lt_of_readable {req : MessageRequest} (h : Readable (.message req)) :
    req.content.length < 2 ^ 20 := by
  have hlt := h.2
  rw [body_message] at hlt
  simp only [List.length_append, BigEndian.length_toBytes] at hlt
  omega

/-- A chat message that is read is decoded to itself. -/
theorem decodeRequest_message {r : Request} {req : MessageRequest} (hr : Readable r)
    (h : decodeRequest (packetOf r) = some (some (.message req))) : r = .message req := by
  have hcommand : r.command = .messageReq := command_of_decodeRequest h
  cases r with
  | message req' =>
    have hfits : (Request.message req').Fits := by
      have hlt := content_lt_of_readable hr
      show req'.content.length < 2 ^ 32 - 8
      omega
    have hdecode := decodeRequest_body hfits VERSION
    rw [show decodeRequest (packetOf (.message req'))
      = decodeRequest ⟨VERSION, (Request.message req').command, (Request.message req').body⟩
      from rfl, hdecode] at h
    cases h
    rfl
  | _ => exact absurd hcommand (by simp only [Request.command]; decide)

theorem dispatchable_of_readable {r r' : Request} (hr : Readable r)
    (h : decodeRequest (packetOf r) = some (some r')) : Dispatchable r' := by
  cases r' with
  | friendList =>
    have hcommand : r.command = .friendListReq := command_of_decodeRequest h
    cases r with
    | friendList =>
      have hpos := hr.1
      rw [body_friendList] at hpos
      exact absurd hpos (Nat.lt_irrefl 0)
    | _ => exact absurd hcommand (by simp only [Request.command]; decide)
  | message req =>
    rw [decodeRequest_message hr h] at hr
    exact content_lt_of_readable hr
  | _ => trivial

/-- Every packet led to the call that it is for. -/
structure Peer.Attentive (p : Peer) : Prop where
  bounded : ∀ r ∈ p.requests, r.body.length < 2 ^ 32
  invocations : p.invocations = p.handled.filterMap fun packet => (invocationOf packet).join

/-- What holds of a run of bounded events, besides `Linked`. -/
structure Served (db : δ) (evs : List (Event δ)) (s : State δ) : Prop where
  linked : Linked db evs s
  answering : Answering s.server.calls
  attentive : ∀ c, (s.peer c).Attentive

theorem served_init (db : δ) : Served db [] (State.init db) where
  linked := linked_init db
  answering := ⟨fun _ hp => absurd hp List.not_mem_nil, fun _ => rfl⟩
  attentive := fun _ => ⟨fun _ hr => absurd hr List.not_mem_nil, rfl⟩

section

variable {db : δ} {evs : List (Event δ)} {s s' : State δ} {c : ConnId}

theorem Served.intelligible (hs : Served db evs s) {b : Bytes}
    (hb : b ∈ buffersOn c (sendsOf s.server.calls)) : Intelligible b := by
  obtain ⟨p, hp, rfl⟩ := List.mem_map.mp hb
  exact hs.answering.sends p (List.mem_of_mem_filter hp)

theorem Served.handled_isPrefix (hs : Served db evs s) (c : ConnId) :
    (s.peer c).handled <+: buffersOn c (sendsOf s.server.calls) :=
  hs.linked.handled_isPrefix fun _ hb => (hs.intelligible hb).isFrame

/-- A request that was handed over is one that the client has made. -/
theorem Served.request_of_packet (hs : Served db evs s) {packet : Packet}
    (h : packet ∈ requestsOn c s.server.calls) :
    ∃ r ∈ readable (s.peer c).requests, packet = packetOf r := by
  rw [requestsOn_eq] at h
  have hmem := (hs.linked.handledOn_isPrefix (hs.attentive c).bounded).subset
    (List.mem_of_mem_filter h)
  obtain ⟨r, hr, heq⟩ := List.mem_map.mp hmem
  exact ⟨r, hr, heq.symm⟩

/-- The callback that a buffer is for has been stored. -/
theorem Served.stored (hs : Served db evs s) {b : Bytes}
    (hb : b ∈ buffersOn c (sendsOf s.server.calls)) {slot : Slot} (hslot : slotOf b = some slot) :
    (s.peer c).callbacks slot = true := by
  rw [(hs.linked.link c).client.callbacks slot]
  cases hnotify : isNotify b with
  | true =>
    rw [(hs.intelligible hb).isNotify.mp hnotify] at hslot
    exact Or.inl (Option.some_inj.mp hslot).symm
  | false =>
    -- It is an answer, so a request with this callback was made.
    have hanswer : b ∈ answersOn c s.server.calls := by
      rw [answersOn_eq]
      exact List.mem_filter.mpr ⟨hb, by rw [hnotify]; rfl⟩
    have hmem := List.mem_map_of_mem (f := slotOf) hanswer
    rw [hs.answering.answers c, hslot] at hmem
    obtain ⟨packet, hpacket, hexpected⟩ := List.mem_map.mp hmem
    obtain ⟨r, hr, rfl⟩ := hs.request_of_packet hpacket
    refine Or.inr ⟨r, mem_of_readable hr, ?_⟩
    obtain ⟨r', hdecode, hr'⟩ := Option.bind_eq_some_iff.mp hexpected
    have hcommand : r.command = r'.command :=
      command_of_decodeRequest (Option.join_eq_some_iff.mp hdecode)
    exact (slot_congr hcommand).trans hr'

theorem Served.server {e : Server.Event δ} {sent : Nat} (hs : Served db evs s)
    (h : step s (.server e sent) = some s') (he : Event.Bounded (.server e sent)) :
    Served db (evs ++ [.server e sent]) s' := by
  have hlinked := hs.linked.snoc h
  obtain ⟨hserver, hpeer⟩ := step_server h
  have hattentive : ∀ c, (s'.peer c).Attentive := fun c => by
    obtain ⟨_, _, hp⟩ := hpeer c
    rw [hp]
    exact ⟨(hs.attentive c).bounded, (hs.attentive c).invocations⟩
  refine ⟨hlinked, ?_, hattentive⟩
  refine step_answering hs.answering hserver fun c body w heq => ?_
  subst heq
  refine ⟨he, fun packet hpacket r hr => ?_⟩
  have hmem : packet ∈ handledOn c s'.server.calls := by
    rw [handledOn_step hserver]
    exact List.mem_append_right _ hpacket
  have hreadable := (hlinked.handledOn_isPrefix (hattentive c).bounded).subset hmem
  obtain ⟨r', hr', rfl⟩ := List.mem_map.mp hreadable
  exact dispatchable_of_readable (readable_of_mem hr') hr

theorem Served.snoc {e : Event δ} (hs : Served db evs s) (h : step s e = some s')
    (he : e.Bounded) : Served db (evs ++ [e]) s' := by
  have hlinked := hs.linked.snoc h
  cases e with
  | server e sent => exact hs.server h he
  | request c r =>
    rw [step_request h] at hlinked ⊢
    refine ⟨hlinked, hs.answering, State.modify_forall (P := fun _ => Peer.Attentive)
      hs.attentive ⟨fun r' hr' => ?_, (hs.attentive c).invocations⟩⟩
    rcases List.mem_append.mp hr' with hr' | hr'
    · exact (hs.attentive c).bounded r' hr'
    · rw [List.mem_singleton.mp hr']
      exact he
  | recv c chunk =>
    obtain ⟨_, _, _, rfl⟩ := step_recv h
    exact ⟨hlinked, hs.answering, State.modify_forall (P := fun _ => Peer.Attentive)
      hs.attentive ⟨(hs.attentive c).bounded, (hs.attentive c).invocations⟩⟩
  | handle c =>
    obtain ⟨packet, rest, invocations, _, _, hcall, rfl⟩ := step_handle h
    refine ⟨hlinked, hs.answering, State.modify_forall (P := fun _ => Peer.Attentive)
      hs.attentive ⟨(hs.attentive c).bounded, ?_⟩⟩
    -- The packet is one that was sent, so its callback is there.
    have hinitial := hlinked.handled_isPrefix (c := c) fun _ hb => (hs.intelligible hb).isFrame
    rw [State.modify_peer_self] at hinitial
    have hmem : packet ∈ buffersOn c (sendsOf s.server.calls) :=
      hinitial.subset (List.mem_append_right _ (List.mem_singleton_self _))
    rw [Callbacks.handlePacket_eq] at hcall
    obtain ⟨result, hresult, rfl⟩ := Option.map_eq_some_iff.mp hcall
    dsimp only
    rw [List.filterMap_append, (hs.attentive c).invocations]
    refine congrArg _ ?_
    rw [List.filterMap_cons, hresult, List.filterMap_nil]
    cases result with
    | none => rfl
    | some invocation => exact if_pos (hs.stored hmem (slotOf_eq hresult))

theorem served_of_exec {t : State δ} (h : exec step (.init db) evs = some t)
    (hbounded : ∀ e ∈ evs, e.Bounded) : Served db evs t := by
  refine exec_induction (P := fun evs s => (∀ e ∈ evs, e.Bounded) → Served db evs s)
    (fun _ => served_init db) (fun hs hstep hall => ?_) h hbounded
  rw [List.forall_mem_append] at hall
  exact (hs hall.1).snoc hstep (hall.2 _ (List.mem_singleton_self _))

end

/-! ## In order, and all of them -/

/-- The requests of a client that a handler is called for. -/
def answered (rs : List Request) : List Request :=
  (readable rs).filter fun r => (decodeRequest (packetOf r)).join.isSome

section

variable {db : δ} {evs : List (Event δ)} {s : State δ} {c : ConnId}

theorem expectedSlot_packetOf {r : Request} (h : (decodeRequest (packetOf r)).join.isSome) :
    expectedSlot (packetOf r) = r.slot := by
  obtain ⟨r', hr'⟩ := Option.isSome_iff_exists.mp h
  have hcommand : r.command = r'.command :=
    command_of_decodeRequest (Option.join_eq_some_iff.mp hr')
  unfold expectedSlot
  rw [hr']
  exact (slot_congr hcommand).symm

theorem filterMap_expectedSlot (rs : List Request) :
    ((answered rs).map packetOf).filterMap expectedSlot
      = (answered rs).filterMap Request.slot := by
  rw [List.filterMap_map]
  refine List.filterMap_congr fun r hr => ?_
  exact expectedSlot_packetOf (List.mem_filter.mp hr).2

theorem filter_packetOf (rs : List Request) :
    ((readable rs).map packetOf).filter (fun packet => (decodeRequest packet).join.isSome)
      = (answered rs).map packetOf :=
  List.filter_map

/-- The calls that answer requests, among those for a list of sent buffers. -/
theorem answers_of_intelligible {buffers : List Bytes} (h : ∀ b ∈ buffers, Intelligible b) :
    (buffers.filterMap fun b => (invocationOf b).join).filter
        (fun invocation => invocation.slot ≠ .messageCallback)
      = (buffers.filter fun b => !isNotify b).filterMap fun b => (invocationOf b).join := by
  rw [List.filter_filterMap, List.filterMap_filter]
  refine List.filterMap_congr fun b hb => ?_
  obtain ⟨result, hresult⟩ := Option.isSome_iff_exists.mp (h b hb).isSome
  rw [hresult]
  cases result with
  | none => exact (ite_self _).symm
  | some invocation =>
    have hiff := isNotify_iff_slot hresult
    by_cases htrue : isNotify b = true
    · simp [htrue, hiff.mp htrue]
    · simp [htrue, mt hiff.mpr htrue]

theorem slots_of_intelligible {buffers : List Bytes} (h : ∀ b ∈ buffers, Intelligible b) :
    ((buffers.filterMap fun b => (invocationOf b).join).map Invocation.slot).filter
        (fun slot => slot ≠ .messageCallback)
      = (buffers.filter fun b => !isNotify b).filterMap slotOf := by
  rw [List.filter_map, show ((fun slot => decide (slot ≠ Slot.messageCallback))
    ∘ Invocation.slot) = fun invocation => decide (invocation.slot ≠ .messageCallback) from rfl,
    answers_of_intelligible h, List.map_filterMap]
  rfl

theorem Served.answerSlots (hs : Served db evs s) (c : ConnId) :
    (answersOn c s.server.calls).filterMap slotOf
      = (requestsOn c s.server.calls).filterMap expectedSlot := by
  have hanswers := congrArg (List.filterMap id) (hs.answering.answers c)
  rwa [List.filterMap_map, List.filterMap_map] at hanswers

/-- The calls that answer requests are those for the answers taken out so far. -/
theorem Served.slots (hs : Served db evs s) (c : ConnId) :
    ((s.peer c).invocations.map Invocation.slot).filter (fun slot => slot ≠ .messageCallback)
      = ((s.peer c).handled.filter fun b => !isNotify b).filterMap slotOf := by
  rw [(hs.attentive c).invocations]
  exact slots_of_intelligible fun b hb => hs.intelligible ((hs.handled_isPrefix c).subset hb)

/-- Once nothing is in flight, every request that was read has had its callback. -/
theorem Served.all_called (hs : Served db evs s) (hdrained : Drained evs s c)
    (hdelivered : Delivered evs s c) :
    (s.peer c).handled = buffersOn c (sendsOf s.server.calls)
      ∧ ((s.peer c).invocations.map Invocation.slot).filter (fun slot => slot ≠ .messageCallback)
        = (answered (s.peer c).requests).filterMap Request.slot := by
  have hall := hs.linked.handled_eq (fun b hb => (hs.intelligible hb).isFrame) hdelivered
  refine ⟨hall, ?_⟩
  rw [hs.slots, hall, ← answersOn_eq, hs.answerSlots, ← filterMap_expectedSlot, requestsOn_eq,
    hs.linked.handledOn_eq (hs.attentive c).bounded hdrained, filter_packetOf]

/-- **Callbacks answer requests, in order and each once.** At any time the client has
taken out the first of the buffers sent to it, and each has led to the call it is for;
so its callbacks other than for messages were called in the order of its requests that
are answered, once each. When nothing can be read and nothing is in flight any more,
all of them have been. -/
theorem callbacks_in_order (h : exec step (.init db) evs = some s)
    (hbounded : ∀ e ∈ evs, e.Bounded) (c : ConnId) :
    (s.peer c).handled <+: buffersOn c (sendsOf s.server.calls)
      ∧ (s.peer c).invocations
        = (s.peer c).handled.filterMap (fun packet => (invocationOf packet).join)
      ∧ ((s.peer c).invocations.map Invocation.slot).filter (fun slot => slot ≠ .messageCallback)
        <+: (answered (s.peer c).requests).filterMap Request.slot
      ∧ (Drained evs s c → Delivered evs s c →
        (s.peer c).handled = buffersOn c (sendsOf s.server.calls)
        ∧ ((s.peer c).invocations.map Invocation.slot).filter (fun slot => slot ≠ .messageCallback)
          = (answered (s.peer c).requests).filterMap Request.slot) := by
  have hs := served_of_exec h hbounded
  have hinitial := hs.handled_isPrefix c
  have hrequests := hs.linked.handledOn_isPrefix (hs.attentive c).bounded
  refine ⟨hinitial, (hs.attentive c).invocations, ?_, hs.all_called⟩
  rw [hs.slots]
  refine ((hinitial.filter _).filterMap _).trans ?_
  rw [← answersOn_eq, hs.answerSlots, ← filterMap_expectedSlot, requestsOn_eq]
  refine List.IsPrefix.filterMap _ ?_
  rw [← filter_packetOf]
  exact hrequests.filter _

end

/-- One login, from the client's request to its callback. -/
def loginExchange : List (Event Unit) :=
  [.request 1 (.login ⟨[97], []⟩), .server (.accept 1) 0,
    .server (.readHeader 1 [1, 0, 1, 0, 0, 0, 5]) 0,
    .server (.readBody 1 [0, 1, 97, 0, 0] twoAccounts) 0, .server .runPosted 0,
    .server (.writeOk 1) 0, .recv 1 [1, 0, 2, 0, 0, 0, 9, 0, 0, 0],
    .recv 1 [0, 0, 1, 0, 1, 97], .handle 1]

theorem textsFit_twoAccounts : TextsFit twoAccounts where
  username := by
    intro _ username _ user huser
    dsimp only [twoAccounts] at huser
    split at huser
    next heq =>
      cases huser
      rw [heq]
      decide
    next =>
      split at huser
      next heq =>
        cases huser
        rw [heq]
        decide
      next => cases huser
  question := fun hquestion => by cases hquestion

theorem bounded_loginExchange : ∀ e ∈ loginExchange, e.Bounded := by
  simp only [loginExchange, List.mem_cons, List.not_mem_nil, or_false, forall_eq_or_imp,
    forall_eq, Event.Bounded, and_true, true_and]
  exact ⟨by decide, textsFit_twoAccounts⟩

theorem exec_loginExchange : ∃ s, exec step (.init ()) loginExchange = some s
    ∧ (s.peer 1).requests = [.login ⟨[97], []⟩] ∧ Drained loginExchange s 1
    ∧ Delivered loginExchange s 1 := by
  have hrun : (exec step (.init ()) loginExchange).map (fun s =>
      ((s.server.conn 1).reads, (s.peer 1).requests,
        [s.server.posted.map Prod.snd, (s.server.conn 1).writes,
          [(s.peer 1).uplink, (s.peer 1).downlink, (s.peer 1).readBuffer]]))
      = some ([.header], [.login ⟨[97], []⟩], [[], [], [[], [], []]]) := by decide +kernel
  obtain ⟨s, hs, hfinal⟩ := Option.map_eq_some_iff.mp hrun
  simp only [Prod.mk.injEq, List.cons.injEq, and_true] at hfinal
  obtain ⟨hreads, hrequests, hposted, hwrites, huplink, hdownlink, hbuffer⟩ := hfinal
  refine ⟨s, hs, hrequests, ?_, ?_⟩
  · refine ⟨by simp [serverEvents, loginExchange], by simp [serverEvents, loginExchange], ?_⟩
    rw [hreads, huplink]
    decide
  · refine ⟨?_, hwrites, by simp [serverEvents, loginExchange], hdownlink, ?_⟩
    · rw [List.map_eq_nil_iff.mp hposted]
      exact fun _ hp => absurd hp List.not_mem_nil
    · rw [hbuffer]
      exact not_complete_nil

theorem callbacks_in_order_login : ∃ s, exec step (.init ()) loginExchange = some s
    ∧ ((s.peer 1).invocations.map Invocation.slot).filter (fun slot => slot ≠ .messageCallback)
      = [.loginCallback] := by
  obtain ⟨s, hs, hrequests, hdrained, hdelivered⟩ := exec_loginExchange
  obtain ⟨_, _, _, hall⟩ := callbacks_in_order hs bounded_loginExchange 1
  refine ⟨s, hs, ?_⟩
  rw [(hall hdrained hdelivered).2, hrequests]
  decide +kernel

/-! ## In bounds -/

section

variable {db : δ} {evs : List (Event δ)} {s : State δ} {c : ConnId}

theorem step_server_isSome {e : Server.Event δ} {t : ChatServer δ} (sent : Nat)
    (h : Server.step .started s.server e = some t) (hread : (s.read e).isSome) :
    (step s (.server e sent)).isSome := by
  obtain ⟨m, hm⟩ := Option.isSome_iff_exists.mp hread
  show (Option.bind _ _).isSome
  rw [h, Option.bind_some, hm]
  rfl

theorem step_handle_isSome (hcomplete : wire.Complete (s.peer c).readBuffer)
    {result : Option Invocation}
    (h : invocationOf ((s.peer c).readBuffer.take (wire.total (s.peer c).readBuffer))
      = some result) : (step s (.handle c)).isSome := by
  obtain ⟨p, hp⟩ : ∃ p, (s.peer c).handle = some (some p) := by
    unfold Peer.handle
    rw [takePacket_eq, if_pos hcomplete]
    show ∃ p, ((s.peer c).callbacks.handlePacket _).bind _ = some (some p)
    rw [Callbacks.handlePacket_eq, h]
    exact ⟨_, rfl⟩
  show (Option.bind _ _).isSome
  rw [hp]
  rfl

/-- A pending body read is that of a request whose header has been read. -/
theorem Linked.packet_of_body (hs : Linked db evs s)
    (hlen : ∀ r ∈ (s.peer c).requests, r.body.length < 2 ^ 32) {body : Bytes}
    (hreads : .body body.length ∈ (s.server.conn c).reads) (hbody : body <+: (s.peer c).uplink) :
    ∃ r ∈ readable (s.peer c).requests,
      (s.server.conn c).headerBuffer = headerOf r ∧ body = r.body := by
  obtain ⟨frames, tail, hparsed⟩ := parsed_of_exec hs.run c
  obtain ⟨_, hphase⟩ := hparsed.phase_of_reads (List.ne_nil_of_mem hreads)
  cases hphase with
  | between hnone _ =>
    rw [show (s.server.conn c).reads = _ from hnone] at hreads
    cases List.mem_singleton.mp hreads
  | refused hnone _ _ => exact absurd hnone (List.ne_nil_of_mem hreads)
  | failed hnone _ _ => exact absurd hnone (List.ne_nil_of_mem hreads)
  | @within bodyLength hheader hacceptable hinput =>
    rw [show (s.server.conn c).reads = _ from congrArg Input.reads hinput] at hreads
    injection List.mem_singleton.mp hreads with hlength
    -- The header and the body are one more frame of the client's stream.
    have hframes : ∀ f ∈ frames ++ [tail ++ body], wire.IsFrame f ∧ acceptedFrame f = true := by
      intro f hf
      rcases List.mem_append.mp hf with hf | hf
      · exact hparsed.accepted f hf
      · rw [List.mem_singleton.mp hf]
        exact ⟨hheader.isFrame hlength, (hheader.acceptedFrame_iff hlength).mpr hacceptable⟩
    obtain ⟨rest, hrest⟩ := hbody
    have hstream : (frames ++ [tail ++ body]).flatten ++ rest = stream (s.peer c).requests := by
      rw [← (hs.link c).uplink, ← hparsed.bytes, ← hrest]
      simp only [List.flatten_append, List.flatten_singleton, List.append_assoc]
    have hinitial :
        frames ++ [tail ++ body] <+: (readable (s.peer c).requests).map encodeRequest := by
      rw [← dispatches_stream hlen, ← hstream]
      have hparse := Framing.parseWhile_append hframes fun hc => absurd hc not_complete_nil
      rw [List.append_nil] at hparse
      have hlater := Framing.parseWhile_prefix (F := wire) acceptedFrame
        (frames ++ [tail ++ body]).flatten rest
      rw [hparse] at hlater
      exact hlater
    obtain ⟨r, hr, hframe⟩ := List.mem_map.mp
      (hinitial.subset (List.mem_append_right _ (List.mem_singleton_self (tail ++ body))))
    have hsplit : tail ++ body = headerOf r ++ r.body := by
      rw [headerOf_append_body, hframe]
    obtain ⟨htail, hbody⟩ :=
      List.append_inj hsplit (hheader.length.trans (length_headerOf r).symm)
    exact ⟨r, hr, (congrArg Input.headerBuffer hinput).trans htail, hbody⟩

theorem take_isSome {bytes : Bytes} (h : bytes <+: (s.peer c).uplink) : (s.take c bytes).isSome := by
  unfold State.take
  rw [if_pos h]
  rfl

theorem readHeader_isSome {header : Bytes} (hrunning : s.server.running = true)
    (hreads : .header ∈ (s.server.conn c).reads) (hlength : header.length = HEADER_SIZE)
    (hinitial : header <+: (s.peer c).uplink) :
    (step s (.server (.readHeader c header) 0)).isSome := by
  obtain ⟨bodyLength, hheader⟩ := exists_isHeader hlength
  exact step_server_isSome 0 (step_readHeader.mpr ⟨hrunning, ⟨hreads, hlength⟩, bodyLength,
    hheader.announces, rfl⟩) (take_isSome hinitial)

theorem Served.readBody_isSome (hs : Served db evs s) {body : Bytes}
    (hrunning : s.server.running = true)
    (hreads : .body body.length ∈ (s.server.conn c).reads) (hinitial : body <+: (s.peer c).uplink)
    (w : World δ) : (step s (.server (.readBody c body w) 0)).isSome := by
  obtain ⟨r, hr, hheader, rfl⟩ :=
    hs.linked.packet_of_body (hs.attentive c).bounded hreads hinitial
  obtain ⟨decoded, hdecoded⟩ := Option.isSome_iff_exists.mp
    (decodeRequest_body_isSome (readable_of_mem hr).2 VERSION)
  exact step_server_isSome 0 (step_readBody.mpr ⟨hrunning, hreads, packetOf r, decoded,
    packet_bodyRead hheader, hdecoded, rfl⟩) (take_isSome hinitial)

/-- The packet is the next of the buffers sent, and those are intelligible. -/
theorem Served.handle_isSome (hs : Served db evs s)
    (hcomplete : wire.Complete (s.peer c).readBuffer) : (step s (.handle c)).isSome := by
  have hclient := (hs.linked.link c).client
  have hframe := Framing.isFrame_take hcomplete
  have hflatten : ((s.peer c).handled
      ++ [(s.peer c).readBuffer.take (wire.total (s.peer c).readBuffer)]).flatten
      <+: (buffersOn c (sendsOf s.server.calls)).flatten := by
    refine List.IsPrefix.trans ?_ ((List.prefix_append ..).trans (hs.linked.received_isPrefix c))
    rw [List.flatten_append, List.flatten_singleton, ← hclient.bytes]
    exact (List.prefix_append_right_inj _).mpr (List.take_prefix ..)
  have hinitial := Framing.isPrefix_of_flatten (fun f hf => by
    rcases List.mem_append.mp hf with hf | hf
    · exact hclient.frames f hf
    · rw [List.mem_singleton.mp hf]
      exact hframe) (fun b hb => (hs.intelligible hb).isFrame) hflatten
  obtain ⟨result, hresult⟩ := Option.isSome_iff_exists.mp (hs.intelligible
    (hinitial.subset (List.mem_append_right _ (List.mem_singleton_self _)))).isSome
  exact step_handle_isSome hcomplete hresult

/-- **Nothing is read outside a buffer.** In every state that the server and its clients
can get into, whatever read completes with what the stream holds, and whatever packet
the client takes out, the callback runs to its end. -/
theorem never_outOfBounds (h : exec step (.init db) evs = some s)
    (hbounded : ∀ e ∈ evs, e.Bounded) (c : ConnId) :
    (∀ header, s.server.running = true → .header ∈ (s.server.conn c).reads →
        header.length = HEADER_SIZE → header <+: (s.peer c).uplink →
        (step s (.server (.readHeader c header) 0)).isSome)
      ∧ (∀ body w, s.server.running = true → .body body.length ∈ (s.server.conn c).reads →
        body <+: (s.peer c).uplink → (step s (.server (.readBody c body w) 0)).isSome)
      ∧ (wire.Complete (s.peer c).readBuffer → (step s (.handle c)).isSome) := by
  have hs := served_of_exec h hbounded
  refine ⟨fun header hrunning hreads hlength hinitial => ?_,
    fun body w hrunning hreads hinitial => ?_, hs.handle_isSome⟩
  · exact readHeader_isSome hrunning hreads hlength hinitial
  · exact hs.readBody_isSome hrunning hreads hinitial w

end

/-- The header of the login has been read, and its body can be. -/
theorem never_outOfBounds_login : ∃ s, exec step (.init ()) (loginExchange.take 3) = some s
    ∧ (step s (.server (.readBody 1 [0, 1, 97, 0, 0] twoAccounts) 0)).isSome := by
  have hrun : (exec step (.init ()) (loginExchange.take 3)).map (fun s =>
      (s.server.running, (s.server.conn 1).reads, (s.peer 1).uplink))
      = some (true, [.body 5], [0, 1, 97, 0, 0]) := by decide +kernel
  obtain ⟨s, hs, hfinal⟩ := Option.map_eq_some_iff.mp hrun
  simp only [Prod.mk.injEq] at hfinal
  obtain ⟨hrunning, hreads, huplink⟩ := hfinal
  have hbounded : ∀ e ∈ loginExchange.take 3, e.Bounded := fun e he =>
    bounded_loginExchange e (List.mem_of_mem_take he)
  refine ⟨s, hs, (never_outOfBounds hs hbounded 1).2.1 _ twoAccounts hrunning ?_ ?_⟩
  · rw [hreads]
    decide
  · rw [huplink]

end System

end QQChat
