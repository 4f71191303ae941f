import QQChat.Codec.Frames
import QQChat.Server.Presence

/-!
# Where chat messages go

`handle_chat_message` answers SUCCESS once the message is stored. Before that it
takes three decisions in a row: whether the recipient has an entry in
`user_to_conn_`, whether the connection it names is registered, and, if there
is no entry, the unread counter. `Accounted` is what one wants of a message so
answered: a notification on one connection of the recipient, or one more unread
message, and not both.

The decisions read the entry only, so a message goes astray exactly when the
recipient's entry is stale: it names a connection that is gone, or one that by
now belongs to somebody else (`accounted_iff`).
-/

namespace QQChat.Server

open BigEndian Trace ChatServer

variable {δ : Type}

/-! ## What is sent -/

/-- The buffers passed to `send` between two states. -/
def passedToSend (s s' : ChatServer δ) : List (ConnId × Bytes) :=
  s'.posted.drop s.posted.length

def isNotify (data : Bytes) : Bool :=
  readUint16 data 1 = some CommandCode.messageNotify.toUInt16

def notifies (s s' : ChatServer δ) : List (ConnId × Bytes) :=
  (passedToSend s s').filter fun p => isNotify p.2

/-- The answer to a chat message. -/
def chatAnswer (errorCode : ErrorCode) (msgId : Int32) : Bytes :=
  encode {
    version := VERSION
    command := .messageResp
    data := encodeMessageResponse { errorCode, msgId } }

/-- The notification of a chat message. -/
def notification (fromId : Int32) (content : Bytes) (timestamp : Int64) : Bytes :=
  encode {
    version := VERSION
    command := .messageNotify
    data := encodeMessageNotify { fromId, content, timestamp } }

theorem isNotify_encode (command : CommandCode) (data : Bytes) :
    isNotify (encode { version := VERSION, command, data })
      = decide (command = .messageNotify) := by
  unfold isNotify
  rw [encode_eq_client, Client.command_encode]
  cases command
  simp [CommandCode.messageNotify]

theorem isNotify_iff {data : Bytes} :
    isNotify data = true ↔ commandOf data = some .messageNotify := by
  unfold isNotify commandOf
  rw [decide_eq_true_iff]
  cases readUint16 data 1 with
  | none => exact ⟨(fun h => nomatch h), fun h => nomatch h⟩
  | some command => simp [CommandCode.messageNotify]

theorem isNotify_notification (fromId : Int32) (content : Bytes) (timestamp : Int64) :
    isNotify (notification fromId content timestamp) = true :=
  isNotify_encode ..

theorem isNotify_chatAnswer (errorCode : ErrorCode) (msgId : Int32) :
    isNotify (chatAnswer errorCode msgId) = false :=
  isNotify_encode ..

/-- An answer shows its error code. -/
theorem chatAnswer_errorCode {errorCode errorCode' : ErrorCode} {msgId msgId' : Int32}
    (h : chatAnswer errorCode msgId = chatAnswer errorCode' msgId') : errorCode = errorCode' := by
  have hread : ∀ e m, errorCodeOf (chatAnswer e m) = some e :=
    fun _ _ => errorCodeOf_encode (carries_messageResponse _)
  have hcode := congrArg errorCodeOf h
  rw [hread, hread] at hcode
  exact Option.some_inj.mp hcode

/-! ## What happens to a message -/

/-- The step answers SUCCESS to a chat message on `c`. -/
def AnswersSuccess (s s' : ChatServer δ) (c : ConnId) : Prop :=
  ∃ msgId, (c, chatAnswer .success msgId) ∈ passedToSend s s'

/-- One connection was sent a notification, with the sender's id and the content;
it is registered, and the recipient's. -/
def Notified (s s' : ChatServer δ) (c : ConnId) (req : MessageRequest) : Prop :=
  ∃ d timestamp, d ∈ s'.connections ∧ (s'.conn d).userId = req.toId
    ∧ notifies s s' = [(d, notification (s.conn c).userId req.content timestamp)]

/-- The recipient has one more unread message, and nobody was notified. -/
def Counted (s s' : ChatServer δ) (req : MessageRequest) : Prop :=
  s'.cache.unread req.toId = s.cache.unread req.toId + 1 ∧ notifies s s' = []

/-- A chat message that is answered SUCCESS was either notified or counted. -/
def Accounted (s : ChatServer δ) (e : Event δ) (s' : ChatServer δ) : Prop :=
  ∀ c body w req, e = .readBody c body w → requestOf s c body = some (.message req) →
    AnswersSuccess s s' c →
      (Notified s s' c req ∨ Counted s s' req) ∧ ¬ (Notified s s' c req ∧ Counted s s' req)

/-- When the sender is authenticated and the message stored, the recipient's
entry, if there is one, names a registered connection of the recipient. -/
def RecipientReachable (s : ChatServer δ) (e : Event δ) : Prop :=
  ∀ c body w req, e = .readBody c body w → requestOf s c body = some (.message req) →
    (s.conn c).userId ≠ 0 →
    (w.db.sendMessage s.db (s.conn c).userId req.toId req.content).isSome →
      ∀ d, s.userToConn req.toId = some d → d ∈ s.connections ∧ (s.conn d).userId = req.toId

/-- `INCR` is sent as `increment_unread` formats it, and Redis executes it. -/
def IncrSucceeds (e : Event δ) : Prop :=
  ∀ c body w, e = .readBody c body w → ∀ u, w.redis (.incrementUnread u) = true

/-! ## The handler's three decisions -/

/-- What `deliver` sends. -/
def delivered (w : World δ) (s : ChatServer δ) (fromId : Int32) (req : MessageRequest) :
    List (ConnId × Bytes) :=
  match s.userToConn req.toId with
  | none => []
  | some d => if d ∈ s.connections then [(d, notification fromId req.content w.now)] else []

theorem posted_deliver (w : World δ) (s : ChatServer δ) (fromId : Int32) (req : MessageRequest) :
    (deliver w s fromId req).posted = s.posted ++ delivered w s fromId req := by
  unfold deliver isUserOnline sendToUser delivered
  cases s.userToConn req.toId with
  | none =>
    show (safeCommand w s _).posted = s.posted ++ []
    unfold safeCommand
    rw [List.append_nil]
    split <;> rfl
  | some d =>
    rw [Option.isSome_some, if_pos rfl]
    dsimp only
    split
    · rfl
    · exact (List.append_nil _).symm

theorem unread_deliver {w : World δ} (hincr : ∀ u, w.redis (.incrementUnread u) = true)
    (s : ChatServer δ) (fromId : Int32) (req : MessageRequest) :
    (deliver w s fromId req).cache.unread req.toId
      = s.cache.unread req.toId + if (s.userToConn req.toId).isSome then 0 else 1 := by
  unfold deliver isUserOnline sendToUser
  cases s.userToConn req.toId with
  | none =>
    show (safeCommand w s _).cache.unread req.toId = _
    unfold safeCommand
    rw [if_pos (hincr _)]
    exact Function.update_self ..
  | some d =>
    rw [Option.isSome_some, if_pos rfl, if_pos rfl]
    dsimp only
    split <;> exact (Int.add_zero _).symm

/-- **What a chat message does**: it is refused with an error, or stored,
delivered and answered SUCCESS. -/
theorem handleChatMessage_cases (w : World δ) (s : ChatServer δ) (c : ConnId)
    (req : MessageRequest) :
    ((s.conn c).userId ≠ 0
        ∧ ∃ db msgId, w.db.sendMessage s.db (s.conn c).userId req.toId req.content
            = some (db, msgId)
          ∧ handleChatMessage w s c req
            = (deliver w { s with db } (s.conn c).userId req).send c (chatAnswer .success msgId))
      ∨ (((s.conn c).userId = 0
          ∨ w.db.sendMessage s.db (s.conn c).userId req.toId req.content = none)
        ∧ ∃ errorCode msgId, errorCode ≠ ErrorCode.success
          ∧ handleChatMessage w s c req = s.send c (chatAnswer errorCode msgId)) := by
  dsimp only [handleChatMessage]
  split
  next h0 => exact Or.inr ⟨Or.inl h0, _, _, (by decide : ErrorCode.protocolError ≠ .success), rfl⟩
  next h0 =>
    split
    next hdb =>
      exact Or.inr ⟨Or.inr hdb, _, _, (by decide : ErrorCode.databaseError ≠ .success), rfl⟩
    next db msgId hdb => exact Or.inl ⟨h0, db, msgId, hdb, rfl⟩

/-! ## Over a step, and over a run -/

section

variable {wiring : Wiring} {s s' : ChatServer δ} {c : ConnId} {body : Bytes} {w : World δ}
  {req : MessageRequest}

/-- A chat message leaves the sessions alone. -/
theorem registry_of_chat (h : step wiring s (.readBody c body w) = some s')
    (hreq : requestOf s c body = some (.message req)) : s'.registry = s.registry := by
  have hlogin : acceptedLogin s c body w = none := by
    unfold acceptedLogin
    rw [hreq]
  rw [step_registry h, sessionAction_of_no_login hlogin]
  rfl

/-- The step of a chat message, up to what it does to the read side. -/
theorem step_chat (h : step wiring s (.readBody c body w) = some s')
    (hreq : requestOf s c body = some (.message req)) :
    ((s.conn c).userId ≠ 0
        ∧ (w.db.sendMessage s.db (s.conn c).userId req.toId req.content).isSome
        ∧ ∃ msgId, s'.posted = s.posted
            ++ (delivered w s (s.conn c).userId req ++ [(c, chatAnswer .success msgId)])
          ∧ ((∀ u, w.redis (.incrementUnread u) = true) →
            s'.cache.unread req.toId = s.cache.unread req.toId
              + if (s.userToConn req.toId).isSome then 0 else 1))
      ∨ ((¬ ((s.conn c).userId ≠ 0
            ∧ (w.db.sendMessage s.db (s.conn c).userId req.toId req.content).isSome))
        ∧ ∃ errorCode msgId, errorCode ≠ ErrorCode.success
          ∧ s'.posted = s.posted ++ [(c, chatAnswer errorCode msgId)]) := by
  obtain ⟨_, _, packet, r, hpacket, hr, rfl⟩ := step_readBody.mp h
  rw [requestOf_eq hpacket hr] at hreq
  subst hreq
  -- The handler runs after the body was stored and its call recorded.
  have huser : (((s.bodyRead c body).called c packet).conn c).userId = (s.conn c).userId := by
    simp [called, bodyRead]
  rcases handleChatMessage_cases w ((s.bodyRead c body).called c packet) c req with
    ⟨h0, db, msgId, hdb, heq⟩ | ⟨hfail, errorCode, msgId, hne, heq⟩
  · rw [huser] at h0 hdb heq
    refine Or.inl ⟨h0, Option.isSome_iff_exists.mpr ⟨_, hdb⟩, msgId, ?_, fun hincr => ?_⟩
    · show (handleChatMessage w _ c req).posted = _
      rw [heq]
      show (deliver w _ _ req).posted ++ _ = _
      rw [posted_deliver, List.append_assoc]
      rfl
    · show (handleChatMessage w _ c req).cache.unread req.toId = _
      rw [heq]
      exact unread_deliver hincr _ _ req
  · rw [huser] at hfail
    refine Or.inr ⟨fun ⟨h0, hdb⟩ => ?_, errorCode, msgId, hne, ?_⟩
    · rcases hfail with hzero | hnone
      · exact h0 hzero
      · rw [show w.db.sendMessage s.db (s.conn c).userId req.toId req.content = none
          from hnone] at hdb
        cases hdb
    · show (handleChatMessage w _ c req).posted = _
      rw [heq]
      rfl

theorem passedToSend_eq {sends : List (ConnId × Bytes)} (h : s'.posted = s.posted ++ sends) :
    passedToSend s s' = sends := by
  unfold passedToSend
  rw [h, List.drop_left]

/-- The answer aside, everything delivered is a notification. -/
theorem notifies_eq {errorCode : ErrorCode} {msgId : Int32}
    (h : s'.posted = s.posted
      ++ (delivered w s (s.conn c).userId req ++ [(c, chatAnswer errorCode msgId)])) :
    notifies s s' = delivered w s (s.conn c).userId req := by
  unfold notifies
  rw [passedToSend_eq h, List.filter_append]
  have hanswer : [(c, chatAnswer errorCode msgId)].filter (fun p => isNotify p.2) = [] := by
    rw [List.filter_singleton, isNotify_chatAnswer]
    rfl
  rw [hanswer, List.append_nil]
  unfold delivered
  split
  · rfl
  · split
    · rw [List.filter_singleton, isNotify_notification]
      rfl
    · rfl

/-- The three outcomes of an accepted message, by the recipient's entry. -/
theorem accounted_iff_of_posted {msgId : Int32} (hregistry : s'.registry = s.registry)
    (hposted : s'.posted = s.posted
      ++ (delivered w s (s.conn c).userId req ++ [(c, chatAnswer .success msgId)]))
    (hunread : s'.cache.unread req.toId = s.cache.unread req.toId
      + if (s.userToConn req.toId).isSome then 0 else 1) :
    ((Notified s s' c req ∨ Counted s s' req) ∧ ¬ (Notified s s' c req ∧ Counted s s' req))
      ↔ ∀ d, s.userToConn req.toId = some d →
          d ∈ s.connections ∧ (s.conn d).userId = req.toId := by
  have hlive : s'.connections = s.connections := congrArg Registry.live hregistry
  have huser : ∀ d, (s'.conn d).userId = (s.conn d).userId :=
    congrFun (congrArg Registry.user hregistry)
  have hnotifies := notifies_eq hposted
  unfold Notified Counted
  rw [hnotifies, hunread, hlive]
  simp only [huser]
  unfold delivered
  cases hentry : s.userToConn req.toId with
  | none =>
    -- No entry: counted, and nobody notified.
    refine iff_of_true ⟨Or.inr ⟨rfl, rfl⟩, ?_⟩ fun d hd => nomatch hd
    intro ⟨⟨_, _, _, _, hnil⟩, _⟩
    cases hnil
  | some d =>
    have hnot : ¬ s.cache.unread req.toId + (if (some d).isSome then 0 else 1)
        = s.cache.unread req.toId + 1 := by
      rw [Option.isSome_some, if_pos rfl]
      omega
    dsimp only
    by_cases hd : d ∈ s.connections
    · -- A registered connection is notified: right if it is the recipient's.
      rw [if_pos hd]
      constructor
      · intro ⟨hone, _⟩ d₁ hd₁
        rcases hone with ⟨d', _, _, huser', hsent⟩ | ⟨hcount, _⟩
        · cases hd₁
          injection hsent with hpair _
          injection hpair with hdd _
          subst hdd
          exact ⟨hd, huser'⟩
        · exact absurd hcount hnot
      · intro hreach
        refine ⟨Or.inl ⟨d, w.now, hd, (hreach d rfl).2, rfl⟩, fun hboth => hnot hboth.2.1⟩
    · -- The entry names a connection that is gone: neither.
      rw [if_neg hd]
      refine iff_of_false ?_ fun hreach => hd (hreach d rfl).1
      intro ⟨hone, _⟩
      rcases hone with ⟨_, _, _, _, hnil⟩ | ⟨hcount, _⟩
      · cases hnil
      · exact hnot hcount

theorem step_accounted_iff {e : Event δ} (hincr : IncrSucceeds e)
    (h : step wiring s e = some s') : Accounted s e s' ↔ RecipientReachable s e := by
  constructor
  · intro hacc c body w req he hreq h0 hdb
    subst he
    rcases step_chat h hreq with ⟨_, _, msgId, hposted, hunread⟩ | ⟨hfail, _⟩
    · -- It was stored, so it is answered SUCCESS and accounted for.
      refine (accounted_iff_of_posted (registry_of_chat h hreq) hposted
        (hunread (hincr c body w rfl))).mp (hacc c body w req rfl hreq ⟨msgId, ?_⟩)
      rw [passedToSend_eq hposted]
      exact List.mem_append_right _ (List.mem_singleton_self _)
    · exact absurd ⟨h0, hdb⟩ hfail
  · intro hreach c body w req he hreq ⟨msgId', hsuccess⟩
    subst he
    rcases step_chat h hreq with
      ⟨h0, hdb, msgId, hposted, hunread⟩ | ⟨_, errorCode, msgId, hne, hposted⟩
    · exact (accounted_iff_of_posted (registry_of_chat h hreq) hposted
        (hunread (hincr c body w rfl))).mpr (hreach c body w req rfl hreq h0 hdb)
    · rw [passedToSend_eq hposted] at hsuccess
      injection List.mem_singleton.mp hsuccess with _ hanswer
      exact absurd (chatAnswer_errorCode hanswer).symm hne

end

/-- **Chat messages are accounted for exactly as long as entries are fresh.** -/
theorem accounted_iff (db : δ) (evs : List (Event δ)) (hincr : ∀ e ∈ evs, IncrSucceeds e) :
    EachStep (step .started) Accounted (.init db) evs
      ↔ EachStep (step .started) (fun s e _ => RecipientReachable s e) (.init db) evs := by
  refine eachStep_iff (I := fun _ => True) (J := fun _ => True) ?_ ?_ ?_ hincr trivial trivial
  · exact fun _ _ _ => trivial
  · exact fun _ _ _ _ _ => trivial
  · exact fun he _ _ h => step_accounted_iff he h

/-- Where presence is sound, every recipient with an entry is reachable. -/
theorem PresenceSound.recipientReachable {s : ChatServer δ} (hs : PresenceSound s) (e : Event δ) :
    RecipientReachable s e :=
  fun _ _ _ req _ _ _ _ d hd => hs req.toId d hd

/-- **Safe logins lose no message**: in a run whose logins are all safe, every chat
message answered SUCCESS is accounted for. -/
theorem accounted_of_safeLogin (db : δ) (evs : List (Event δ))
    (henv : ∀ e ∈ evs, NonzeroIds e ∧ IncrSucceeds e)
    (hsafe : EachStep (step .started) (fun s e _ => SafeLogin s e) (.init db) evs) :
    EachStep (step .started) Accounted (.init db) evs := by
  have hboth : EachStep (step .started) (fun s e s' => SafeLogin s e ∧ Accounted s e s')
      (.init db) evs := by
    refine (eachStep_iff (I := Bounded) (J := PresenceSound) ?_ ?_ ?_ henv (bounded_init db)
      (presenceSound_init db)).mp hsafe
    · exact fun he hb h => step_bounded he.1 hb h
    · exact fun _ hb hs h hlogin => (step_presenceSound_iff hb hs h).mpr hlogin
    · intro s e s' he _ hs h
      exact (and_iff_left ((step_accounted_iff he.2 h).mpr (hs.recipientReachable e))).symm
  exact (eachStep_and.mp hboth).2

/-- Users 1 and 2 log in, and user 1 writes to user `toId`. -/
def chatTo (toId : Int32) : List (Event Unit) :=
  .accept 1 :: loginA 1 ++ .accept 2 :: loginB 2
    ++ received 1 twoAccounts (.message { toId, content := [104, 105] })

theorem incrSucceeds_twoAccounts {c : ConnId} {r : Request} :
    ∀ e ∈ received c twoAccounts r, IncrSucceeds e := by
  intro e he d body w heq u
  rcases List.mem_cons.mp he with rfl | he
  · cases heq
  · rw [List.mem_singleton.mp he] at heq
    cases heq
    rfl

/-- A message to somebody online, accounted for. -/
theorem accounted_iff_chatTo :
    EachStep (step .started) Accounted (.init ()) (chatTo 2)
      ↔ EachStep (step .started) (fun s e _ => RecipientReachable s e) (.init ()) (chatTo 2) := by
  refine accounted_iff () (chatTo 2) fun e he => ?_
  rcases List.mem_append.mp he with he | he
  · rcases List.mem_append.mp he with he | he
    · rcases List.mem_cons.mp he with rfl | he
      · exact fun _ _ _ heq => nomatch heq
      · exact incrSucceeds_twoAccounts e he
    · rcases List.mem_cons.mp he with rfl | he
      · exact fun _ _ _ heq => nomatch heq
      · exact incrSucceeds_twoAccounts e he
  · exact incrSucceeds_twoAccounts e he

/-- User 1 logs in, and then in as user 2 on the same connection. -/
def relogin : List (Event Unit) :=
  .accept 1 :: loginA 1 ++ loginB 1

/-- A message to user 1 now goes to user 2, answered SUCCESS and not counted. -/
theorem not_accounted_relogin : ¬ EachStep (step .started) Accounted (.init ())
    (relogin ++ received 1 twoAccounts (.message { toId := 1, content := [104, 105] })) := by
  intro h
  let body := (Request.message { toId := 1, content := [104, 105] }).body
  let header := (Client.encodeRequest (.message { toId := 1, content := [104, 105] })).take 7
  have hrun : (exec (step .started) (.init ()) (relogin ++ [.readHeader 1 header])).bind (fun s =>
      (step .started s (.readBody 1 body twoAccounts)).map fun s' =>
        (decide (requestOf s 1 body = some (.message { toId := 1, content := [104, 105] })
            ∧ (1, chatAnswer .success 1) ∈ passedToSend s s'),
          (notifies s s').map Prod.fst, (s'.conn 1).userId)) = some (true, [1], 2) := by decide
  obtain ⟨s, hs, hstep⟩ := Option.bind_eq_some_iff.mp hrun
  obtain ⟨s', hs', hfinal⟩ := Option.map_eq_some_iff.mp hstep
  injection hfinal with hanswer hrest
  injection hrest with hnotifies huser
  obtain ⟨hreq, hsuccess⟩ := of_decide_eq_true hanswer
  have hlast : EachStep (step .started) Accounted (.init ())
      ((relogin ++ [.readHeader 1 header]) ++ [.readBody 1 body twoAccounts]) := h
  have hacc : Accounted s (.readBody 1 body twoAccounts) s' := EachStep.of_exec hlast hs hs'
  rcases (hacc 1 body twoAccounts _ rfl hreq ⟨1, hsuccess⟩).1 with
    ⟨d, timestamp, _, huser', hsent⟩ | ⟨_, hnil⟩
  · rw [hsent] at hnotifies
    injection hnotifies with hd _
    rw [show d = 1 from hd, huser] at huser'
    exact absurd huser' (by decide)
  · rw [hnil] at hnotifies
    cases hnotifies

end QQChat.Server
