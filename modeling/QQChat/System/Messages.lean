import QQChat.Server.Relays
import QQChat.System.Answers

/-!
# Chat messages, from one client to another

The third kind of thing that travels. A client's message callback is called with what
other clients have sent, and with nothing else: each call is one message that the
server passed on (`Server.Relays`), in the order it did so; the messages of one client
arrive in the order it sent them, none twice and none altered; the sender it is called
with has logged in on the sending connection, and the one that was addressed on this
one. Messages of other clients may come in between, and a message may be missing, since
the server passes on only what it can (`Server.Delivery`). Of what it has passed on
none is lost.
-/

namespace QQChat.System

open Trace Client Server ChatServer

variable {δ : Type}

/-- The chat message that a request is. -/
def messageOf : Request → Option MessageRequest
  | .message req => some req
  | _ => none

/-- The call that a message leads to at the recipient's. -/
def callOf (r : Relay) : Invocation :=
  .message r.fromId r.req.content r.timestamp

/-- A chat message that is handed over is one that the client made. -/
theorem chatOf_packetOf {r : Request} (hr : Readable r) :
    chatOf (packetOf r) = messageOf r := by
  have hmessage : ∀ req, chatOf (packetOf r) = some req → r = .message req := by
    intro req h
    unfold chatOf at h
    split at h
    next req' hdecode =>
      cases h
      exact decodeRequest_message hr (Option.join_eq_some_iff.mp hdecode)
    next => cases h
  cases hchat : chatOf (packetOf r) with
  | some req =>
    rw [hmessage req hchat]
    rfl
  | none =>
    cases r with
    | message req =>
      have hfits : (Request.message req).Fits := by
        have hlt := content_lt_of_readable hr
        show req.content.length < 2 ^ 32 - 8
        omega
      have hdecode : decodeRequest (packetOf (.message req)) = some (some (.message req)) :=
        decodeRequest_body hfits VERSION
      unfold chatOf at hchat
      rw [hdecode] at hchat
      cases hchat
    | _ => rfl

/-- The calls for messages, among those for a list of sent buffers. -/
theorem messages_of_intelligible {buffers : List Bytes} (h : ∀ b ∈ buffers, Intelligible b) :
    (buffers.filterMap fun b => (invocationOf b).join).filter
        (fun invocation => invocation.slot = .messageCallback)
      = (buffers.filter isNotify).filterMap fun b => (invocationOf b).join := by
  rw [List.filter_filterMap, List.filterMap_filter]
  refine List.filterMap_congr fun b hb => ?_
  obtain ⟨result, hresult⟩ := Option.isSome_iff_exists.mp (h b hb).isSome
  rw [hresult]
  cases result with
  | none => exact (ite_self _).symm
  | some invocation =>
    have hiff := isNotify_iff_slot hresult
    by_cases htrue : isNotify b = true
    · simp [htrue, hiff.mp htrue]
    · simp [htrue, mt hiff.mpr htrue]

section

variable {db : δ} {evs : List (Event δ)} {s : State δ}

theorem Served.chats_isPrefix (hs : Served db evs s) (c : ConnId) :
    (handledOn c s.server.calls).filterMap chatOf
      <+: (readable (s.peer c).requests).filterMap messageOf := by
  have hpackets := hs.linked.handledOn_isPrefix (hs.attentive c).bounded
  have hchats := hpackets.filterMap chatOf
  rw [List.filterMap_map] at hchats
  have hreadable : (readable (s.peer c).requests).filterMap (chatOf ∘ packetOf)
      = (readable (s.peer c).requests).filterMap messageOf :=
    List.filterMap_congr fun r hr => chatOf_packetOf (readable_of_mem hr)
  rwa [hreadable] at hchats

/-- The messages of one client are passed on in its order. -/
theorem Served.relayed_sublist (hs : Served db evs s) (c : ConnId) :
    (((relayed .started db (serverEvents evs)).filter fun r => r.sender = c).map Relay.req).Sublist
      ((readable (s.peer c).requests).filterMap messageOf) :=
  ((relayHistory_of_exec hs.linked.run).fifo c).trans (hs.chats_isPrefix c).sublist

/-- A message that is passed on leads to its call. -/
theorem Served.invocationOf_relay (hs : Served db evs s) {r : Relay}
    (hr : r ∈ relayed .started db (serverEvents evs)) :
    (invocationOf r.buffer).join = some (callOf r) := by
  have hmem : r.req ∈ (readable (s.peer r.sender).requests).filterMap messageOf :=
    (hs.relayed_sublist r.sender).subset (List.mem_map_of_mem (List.mem_filter.mpr
      ⟨hr, decide_eq_true rfl⟩))
  obtain ⟨request, hrequest, hmessage⟩ := List.mem_filterMap.mp hmem
  have hlen : r.req.content.length < 2 ^ 20 := by
    cases request with
    | message req =>
      cases hmessage
      exact content_lt_of_readable (readable_of_mem hrequest)
    | _ => cases hmessage
  rw [show invocationOf r.buffer = _ from
    invocation_notification ⟨r.fromId, r.req.content, r.timestamp⟩ hlen]
  rfl

theorem Served.calls_of_notifications (hs : Served db evs s) (d : ConnId) :
    ((buffersOn d (sendsOf s.server.calls)).filter isNotify).filterMap
        (fun b => (invocationOf b).join)
      = ((relayed .started db (serverEvents evs)).filter fun r => r.recipient = d).map callOf := by
  rw [(relayHistory_of_exec hs.linked.run).notified d, List.filterMap_map, ← List.filterMap_eq_map]
  refine List.filterMap_congr fun r hr => ?_
  exact hs.invocationOf_relay (List.mem_of_mem_filter hr)

/-- The calls of the message callback are the first of the messages passed on. -/
theorem Served.messageCalls_isPrefix (hs : Served db evs s) (d : ConnId) :
    ((s.peer d).invocations.filter fun invocation => invocation.slot = .messageCallback)
      <+: ((relayed .started db (serverEvents evs)).filter fun r => r.recipient = d).map
        callOf := by
  have hinitial := hs.handled_isPrefix d
  have hmessages := messages_of_intelligible fun b hb => hs.intelligible (hinitial.subset hb)
  rw [← (hs.attentive d).invocations] at hmessages
  rw [hmessages, ← hs.calls_of_notifications d]
  exact (hinitial.filter _).filterMap _

/-- **Message callbacks are messages sent.** The calls of a client's message callback are
the first of the messages passed on to it, and all of them once nothing is in flight to
it; the messages passed on from a client are among those it sent, in order; and each
names a sender who has logged in on the sending connection, and is for one who has
logged in on the receiving one. -/
theorem messages_relayed (h : exec step (.init db) evs = some s)
    (hbounded : ∀ e ∈ evs, e.Bounded) :
    (∀ d, ((s.peer d).invocations.filter fun invocation => invocation.slot = .messageCallback)
          <+: ((relayed .started db (serverEvents evs)).filter fun r => r.recipient = d).map callOf
        ∧ (Delivered evs s d →
          ((s.peer d).invocations.filter fun invocation => invocation.slot = .messageCallback)
            = ((relayed .started db (serverEvents evs)).filter fun r => r.recipient = d).map
              callOf))
      ∧ (∀ c, (((relayed .started db (serverEvents evs)).filter fun r => r.sender = c).map
          Relay.req).Sublist ((s.peer c).requests.filterMap messageOf))
      ∧ ∀ r ∈ relayed .started db (serverEvents evs),
        r.fromId ∈ loginsOn r.sender (sendsOf s.server.calls)
        ∧ r.req.toId ∈ loginsOn r.recipient (sendsOf s.server.calls) := by
  have hs := served_of_exec h hbounded
  have hhistory := relayHistory_of_exec hs.linked.run
  refine ⟨fun d => ⟨hs.messageCalls_isPrefix d, fun hdelivered => ?_⟩, fun c => ?_,
    fun r hr => ⟨hhistory.senders r hr, hhistory.recipients r hr⟩⟩
  · have hmessages := messages_of_intelligible fun b hb =>
      hs.intelligible ((hs.handled_isPrefix d).subset hb)
    rw [← (hs.attentive d).invocations] at hmessages
    rw [hmessages, ← hs.calls_of_notifications d,
      hs.linked.handled_eq (fun b hb => (hs.intelligible hb).isFrame) hdelivered]
  · refine (hs.relayed_sublist c).trans ?_
    exact ((List.takeWhile_prefix _).filterMap _).sublist

end

/-- A client makes a request, and the server reads it. -/
def asks (c : ConnId) (r : Request) : List (Event Unit) :=
  .request c r :: (Server.received c twoAccounts r).map fun e => .server e 0

/-- Users 1 and 2 log in, and user 2 writes to user 1. -/
def greeting : List (Event Unit) :=
  .server (.accept 1) 0 :: asks 1 (.login ⟨[97], []⟩)
    ++ .server (.accept 2) 0 :: asks 2 (.login ⟨[98], []⟩) ++ asks 2 (.message ⟨1, [104, 105]⟩)
    ++ [.server .runPosted 0, .server .runPosted 0, .server .runPosted 0, .server .runPosted 0,
      .server (.writeOk 1) 0, .server (.writeOk 1) 0,
      .recv 1 [1, 0, 2, 0, 0, 0, 9, 0, 0, 0, 0, 0, 1, 0, 1, 97], .handle 1,
      .recv 1 (notification 2 [104, 105] 0), .handle 1]

theorem bounded_greeting : ∀ e ∈ greeting, e.Bounded := by
  simp only [greeting, asks, Server.received, List.map_cons, List.map_nil, List.cons_append,
    List.nil_append, List.mem_cons, List.not_mem_nil, or_false, forall_eq_or_imp, forall_eq,
    Event.Bounded, and_true, true_and]
  exact ⟨by decide, textsFit_twoAccounts, by decide, textsFit_twoAccounts, by decide,
    textsFit_twoAccounts⟩

theorem messages_relayed_greeting : ∃ s, exec step (.init ()) greeting = some s
    ∧ ((s.peer 1).invocations.filter fun invocation => invocation.slot = .messageCallback)
      = [.message 2 [104, 105] 0] := by
  have hrun : (exec step (.init ()) greeting).map (fun s =>
      (s.server.posted.map Prod.snd, (s.server.conn 1).writes,
        [(s.peer 1).downlink, (s.peer 1).readBuffer]))
      = some ([], [], [[], []]) := by decide +kernel
  obtain ⟨s, hs, hfinal⟩ := Option.map_eq_some_iff.mp hrun
  simp only [Prod.mk.injEq, List.cons.injEq, and_true] at hfinal
  obtain ⟨hposted, hwrites, hdownlink, hbuffer⟩ := hfinal
  have hdelivered : Delivered greeting s 1 := by
    refine ⟨?_, hwrites, by simp [serverEvents, greeting, asks, Server.received], hdownlink, ?_⟩
    · rw [List.map_eq_nil_iff.mp hposted]
      exact fun _ hp => absurd hp List.not_mem_nil
    · rw [hbuffer]
      exact not_complete_nil
  obtain ⟨hcalls, _⟩ := messages_relayed hs bounded_greeting
  refine ⟨s, hs, ?_⟩
  rw [(hcalls 1).2 hdelivered]
  decide +kernel

end QQChat.System
