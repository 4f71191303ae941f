import QQChat.Server.Framed
import QQChat.Server.Logins

/-!
# The chat messages that are passed on

A message that `handle_chat_message` notifies somebody of, as a record of its own: the
connections at both ends, the sender's id, the request and the time (`Relay`). Over a
run these records are the notifications on every connection, in order; by sender they
are among the messages handed over, in order; and whoever is named in one has logged in
on the connection it names (`RelayHistory`).

The recipient's connection need not *be* the recipient's any more: the entry it was
found by may be stale (`Server.Delivery`). It has been once.
-/

namespace QQChat.Server

open Trace ChatServer

variable {δ : Type}

/-- A chat message on its way from one connection to another. -/
structure Relay where
  sender : ConnId
  fromId : Int32
  req : MessageRequest
  timestamp : Int64
  recipient : ConnId
  deriving DecidableEq

/-- What the recipient's connection is sent. -/
def Relay.buffer (r : Relay) : Bytes :=
  notification r.fromId r.req.content r.timestamp

/-- What `deliver` passes on: there is an entry, and its connection is registered. -/
def relay (w : World δ) (s : ChatServer δ) (c : ConnId) (req : MessageRequest) : List Relay :=
  match s.userToConn req.toId with
  | none => []
  | some d =>
    if d ∈ s.connections then
      [{ sender := c, fromId := (s.conn c).userId, req, timestamp := w.now, recipient := d }]
    else []

/-- The message that a step passes on: it is from an authenticated connection, and has
been stored. -/
def relays (s : ChatServer δ) : Event δ → List Relay
  | .readBody c body w =>
    match requestOf s c body with
    | some (.message req) =>
      if (s.conn c).userId ≠ 0
          ∧ (w.db.sendMessage s.db (s.conn c).userId req.toId req.content).isSome then
        relay w s c req
      else []
    | _ => []
  | _ => []

/-- The chat message in a packet. -/
def chatOf (packet : Packet) : Option MessageRequest :=
  match (decodeRequest packet).join with
  | some (.message req) => some req
  | _ => none

theorem delivered_eq (w : World δ) (s : ChatServer δ) (c : ConnId) (req : MessageRequest) :
    delivered w s (s.conn c).userId req
      = (relay w s c req).map fun r => (r.recipient, r.buffer) := by
  unfold delivered relay
  cases s.userToConn req.toId with
  | none => rfl
  | some d =>
    dsimp only
    split <;> rfl

theorem mem_relay {w : World δ} {s : ChatServer δ} {c : ConnId} {req : MessageRequest} {r : Relay}
    (h : r ∈ relay w s c req) : r.sender = c ∧ r.fromId = (s.conn c).userId ∧ r.req = req
      ∧ s.userToConn req.toId = some r.recipient := by
  unfold relay at h
  cases hentry : s.userToConn req.toId with
  | none =>
    rw [hentry] at h
    cases h
  | some d =>
    rw [hentry] at h
    dsimp only at h
    split at h
    · cases List.mem_singleton.mp h
      exact ⟨rfl, rfl, rfl, rfl⟩
    · cases h

/-- Only a chat message notifies. -/
theorem notifies_handleRequest (w : World δ) (s : ChatServer δ) (c : ConnId) {r : Request}
    (hr : ∀ req, r ≠ .message req) : notifies s (handleRequest w s c r) = [] := by
  have hsingle : ∃ command data, passedToSend s (handleRequest w s c r)
      = [(c, encode { version := VERSION, command, data })] := by
    by_cases hlogin : ∃ req, r = .login req
    · obtain ⟨req, rfl⟩ := hlogin
      obtain ⟨resp, hpassed, _⟩ := handleLogin_answer w s c req
      exact ⟨_, _, hpassed.passedToSend⟩
    · obtain ⟨db, command, data, heq⟩ :=
        handleRequest_answered w s c (fun req heq => hlogin ⟨req, heq⟩) hr
      rw [heq]
      exact ⟨command, data,
        ((Passed.setDb s db).trans (Passed.sendResponse _ c command data)).passedToSend⟩
  obtain ⟨_, _, hsingle⟩ := hsingle
  obtain ⟨notified, answer, _, hpassed⟩ := (handleRequest_responds w s c r).passed
  -- A single buffer is the answer.
  have hnil : notified = [] := by
    have hlength := congrArg List.length (hpassed.passedToSend.symm.trans hsingle)
    simpa using hlength
  unfold notifies
  rw [hpassed.passedToSend, hnil, List.nil_append]
  simp [isNotify_encode, answerCommand_ne_messageNotify]

section

variable {wiring : Wiring} {s s' : ChatServer δ} {e : Event δ}

/-- The notifications that a step sends are the message it passes on. -/
theorem step_notifies (h : step wiring s e = some s') :
    notifies s s' = (relays s e).map fun r => (r.recipient, r.buffer) := by
  rcases e.readBody_or_ne with ⟨c, body, w, rfl⟩ | he
  · dsimp only [relays]
    by_cases hchat : ∃ req, requestOf s c body = some (.message req)
    · obtain ⟨req, hreq⟩ := hchat
      rw [hreq]
      dsimp only
      rcases step_chat h hreq with
        ⟨h0, hstored, msgId, hposted, _⟩ | ⟨hrefused, code, msgId, _, hposted⟩
      · rw [if_pos ⟨h0, hstored⟩, ← delivered_eq]
        exact notifies_eq hposted
      · rw [if_neg hrefused]
        unfold notifies
        rw [passedToSend_eq hposted]
        simp [isNotify_chatAnswer]
    · have hne : ∀ r, requestOf s c body = some r → ∀ req, r ≠ .message req :=
        fun r hr req heq => hchat ⟨req, heq ▸ hr⟩
      have hnone : (match requestOf s c body with
          | some (.message req) =>
            if (s.conn c).userId ≠ 0
                ∧ (w.db.sendMessage s.db (s.conn c).userId req.toId req.content).isSome then
              relay w s c req
            else []
          | _ => []) = [] := by
        split
        next req hreq => exact absurd ⟨req, hreq⟩ hchat
        next => rfl
      rw [hnone]
      obtain ⟨packet, _, ⟨_, _, hpassed⟩ | ⟨r, hr, _, hpassed⟩⟩ := step_dispatched h
      · unfold notifies
        rw [hpassed]
        rfl
      · have hquiet := notifies_handleRequest w ((s.bodyRead c body).called c packet) c (hne r hr)
        unfold notifies at hquiet ⊢
        rw [hpassed, hquiet]
        rfl
  · have hnone : relays s e = [] := by
      cases e with
      | readBody c body w => exact absurd rfl (he c body w)
      | _ => rfl
    unfold notifies
    rw [(step_undispatched h he).2, hnone]
    rfl

/-- A message that is passed on was stored, and names the sender and the entry. -/
theorem mem_relays {r : Relay} (h : r ∈ relays s e) : ∃ body w,
    e = .readBody r.sender body w ∧ requestOf s r.sender body = some (.message r.req)
      ∧ r.fromId = (s.conn r.sender).userId ∧ (s.conn r.sender).userId ≠ 0
      ∧ s.userToConn r.req.toId = some r.recipient := by
  cases e with
  | readBody c body w =>
    dsimp only [relays] at h
    split at h
    next req hreq =>
      split at h
      next hstored =>
        obtain ⟨rfl, hfrom, rfl, hentry⟩ := mem_relay h
        exact ⟨body, w, rfl, hreq, hfrom, hstored.1, hentry⟩
      next => cases h
    next => cases h
  | _ => cases h

theorem length_relays_le (s : ChatServer δ) (e : Event δ) : (relays s e).length ≤ 1 := by
  cases e with
  | readBody c body w =>
    dsimp only [relays]
    split
    · split
      · unfold relay
        split
        · exact Nat.zero_le 1
        · split
          · exact Nat.le_refl 1
          · exact Nat.zero_le 1
      · exact Nat.zero_le 1
    · exact Nat.zero_le 1
  | _ => exact Nat.zero_le 1

/-- A step passes on the message that it hands over, if any. -/
theorem relays_sublist (h : step wiring s e = some s') (c : ConnId) :
    (((relays s e).filter fun r => r.sender = c).map Relay.req).Sublist
      ((handledOn c (loopCalls s e)).filterMap chatOf) := by
  match hrelays : relays s e, length_relays_le s e with
  | [], _ => exact List.nil_sublist _
  | [r], _ =>
    by_cases hc : r.sender = c
    · have hmem : r ∈ relays s e := hrelays ▸ List.mem_singleton_self r
      obtain ⟨body, w, rfl, hreq, _⟩ := mem_relays hmem
      obtain ⟨_, _, packet, decoded, hpacket, hdecoded, _⟩ := step_readBody.mp h
      have hchat : chatOf packet = some r.req := by
        rw [requestOf_eq hpacket hdecoded] at hreq
        unfold chatOf
        rw [hdecoded, hreq]
        rfl
      dsimp only [loopCalls]
      rw [hpacket]
      simp [handledOn, hc, hchat]
    · simp [hc]
  | _ :: _ :: _, hle => simp at hle

end

/-! ## Over a run -/

/-- The messages passed on in a run. -/
def relayed (wiring : Wiring) (db : δ) (evs : List (Event δ)) : List Relay :=
  outputs (step wiring) relays (.init db) evs

/-- What the events so far say about the messages passed on. -/
structure RelayHistory (wiring : Wiring) (db : δ) (evs : List (Event δ)) (s : ChatServer δ) :
    Prop where
  run : exec (step wiring) (.init db) evs = some s
  loggedIn : LoggedIn s
  notified : ∀ d, (buffersOn d (sendsOf s.calls)).filter isNotify
    = ((relayed wiring db evs).filter fun r => r.recipient = d).map Relay.buffer
  fifo : ∀ c, (((relayed wiring db evs).filter fun r => r.sender = c).map Relay.req).Sublist
    ((handledOn c s.calls).filterMap chatOf)
  senders : ∀ r ∈ relayed wiring db evs, r.fromId ∈ loginsOn r.sender (sendsOf s.calls)
  recipients : ∀ r ∈ relayed wiring db evs, r.req.toId ∈ loginsOn r.recipient (sendsOf s.calls)
  entries : ∀ u d, s.userToConn u = some d → u ∈ loginsOn d (sendsOf s.calls)

theorem relayHistory_init (wiring : Wiring) (db : δ) :
    RelayHistory wiring db [] (ChatServer.init db) where
  run := rfl
  loggedIn := loggedIn_init db
  notified := fun _ => rfl
  fifo := fun _ => List.Sublist.refl _
  senders := fun _ hr => absurd hr List.not_mem_nil
  recipients := fun _ hr => absurd hr List.not_mem_nil
  entries := fun _ _ hentry => by cases hentry

section

variable {wiring : Wiring} {db : δ} {evs : List (Event δ)} {s s' : ChatServer δ} {e : Event δ}

/-- An entry is made by a login on the connection it names. -/
theorem entry_of_step (h : step wiring s e = some s')
    (hs : ∀ u d, s.userToConn u = some d → u ∈ loginsOn d (sendsOf s.calls)) {u : Int32}
    {d : ConnId} (hentry : s'.userToConn u = some d) : u ∈ loginsOn d (sendsOf s'.calls) := by
  rw [sendsOf_step h, loginsOn_append, List.mem_append]
  have howner : s'.userToConn = (s.registry.apply (sessionAction s e)).owner := by
    rw [← step_registry h]
    rfl
  have hlogins := step_logins h d
  rw [howner] at hentry
  cases haction : sessionAction s e with
  | accept c =>
    rw [haction] at hentry
    exact Or.inl (hs u d hentry)
  | login c u' =>
    rw [haction] at hentry hlogins
    change Function.update s.userToConn u' (some c) u = some d at hentry
    by_cases hu : u = u'
    · rw [hu, Function.update_self] at hentry
      cases hentry
      refine Or.inr ?_
      rw [hlogins, hu]
      simp
    · rw [Function.update_of_ne hu] at hentry
      exact Or.inl (hs u d hentry)
  | stop c =>
    rw [haction] at hentry
    change (if (s.conn c).userId ≠ 0 then Function.update s.userToConn (s.conn c).userId none
      else s.userToConn) u = some d at hentry
    refine Or.inl (hs u d ?_)
    split at hentry
    · by_cases hu : u = (s.conn c).userId
      · rw [hu, Function.update_self] at hentry
        cases hentry
      · rwa [Function.update_of_ne hu] at hentry
    · exact hentry
  | clear =>
    rw [haction] at hentry
    cases hentry
  | idle =>
    rw [haction] at hentry
    exact Or.inl (hs u d hentry)

theorem RelayHistory.snoc (hs : RelayHistory wiring db evs s) (h : step wiring s e = some s') :
    RelayHistory wiring db (evs ++ [e]) s' := by
  have hrelayed : relayed wiring db (evs ++ [e]) = relayed wiring db evs ++ relays s e :=
    outputs_snoc hs.run h
  have hmono : ∀ {u d}, u ∈ loginsOn d (sendsOf s.calls) → u ∈ loginsOn d (sendsOf s'.calls) := by
    intro u d hu
    rw [sendsOf_step h, loginsOn_append]
    exact List.mem_append_left _ hu
  refine ⟨exec_append.mpr ⟨s, hs.run, exec_cons.mpr ⟨s', h, rfl⟩⟩, step_loggedIn hs.loggedIn h,
    fun d => ?_, fun c => ?_, fun r hr => ?_, fun r hr => ?_, fun u d => entry_of_step h hs.entries⟩
  · rw [hrelayed, sendsOf_step h, buffersOn_append, List.filter_append, hs.notified d,
      List.filter_append, List.map_append]
    refine congrArg _ ?_
    have hnotifies := step_notifies h
    unfold notifies at hnotifies
    unfold buffersOn
    rw [List.filter_map, List.filter_filter]
    have hcomm : (passedToSend s s').filter (fun p => (isNotify ∘ Prod.snd) p && decide (p.1 = d))
        = ((passedToSend s s').filter fun p => isNotify p.2).filter fun p => p.1 = d := by
      rw [List.filter_filter]
      exact List.filter_congr fun p _ => Bool.and_comm ..
    rw [hcomm, hnotifies, List.filter_map, List.map_map]
    rfl
  · rw [hrelayed, List.filter_append, List.map_append]
    obtain ⟨sends, hcalls⟩ := step_calls h
    rw [hcalls, handledOn_append, handledOn_append, handledOn_sends, List.append_nil,
      List.filterMap_append]
    exact (hs.fifo c).append (relays_sublist h c)
  · rw [hrelayed, List.mem_append] at hr
    rcases hr with hr | hr
    · exact hmono (hs.senders r hr)
    · obtain ⟨body, w, _, _, hfrom, hauth, _⟩ := mem_relays hr
      rw [hfrom]
      exact hmono (List.mem_of_getLast? (hs.loggedIn.lastLogin_eq_some hauth))
  · rw [hrelayed, List.mem_append] at hr
    rcases hr with hr | hr
    · exact hmono (hs.recipients r hr)
    · obtain ⟨body, w, _, _, _, _, hentry⟩ := mem_relays hr
      exact hmono (hs.entries _ _ hentry)

theorem relayHistory_of_exec (h : exec (step wiring) (.init db) evs = some s) :
    RelayHistory wiring db evs s :=
  exec_induction (P := RelayHistory wiring db) (relayHistory_init wiring db)
    (fun hs hstep => hs.snoc hstep) h

end

end QQChat.Server
