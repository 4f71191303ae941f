import Mathlib.Algebra.BigOperators.Group.Finset.Basic
import Mathlib.Algebra.Order.BigOperators.Group.Finset
import Mathlib.Data.Prod.Lex
import QQChat.System.Answers

/-!
# What is under way comes to an end

Nothing new from outside, no errors, and the two sides and the network only go on with
what they have: reads and writes complete, posted lambdas run, clients receive and
handle. This does not go on forever (`advances_uses`): a read takes bytes that clients
have sent, a lambda that runs leaves one fewer posted, a write that completes takes a
buffer out of a queue, `recv` takes from a stream, and a handled packet leaves the
client's buffer. Each makes more for the later ones only, so the five amounts go down
in the lexicographic order (`State.remaining`).

And it does not stop early: what is left can go on until every connection that had no
error is drained, and its client has handled all that was sent to it.
-/

namespace QQChat

open Trace

namespace Server

variable {δ : Type} {wiring : Wiring} {s s' : ChatServer δ} {e : Event δ}

theorem accepted_of_step (h : step wiring s e = some s') (he : ∀ c, e ≠ .accept c) :
    s'.accepted = s.accepted := by
  cases e with
  | accept c => exact absurd rfl (he c)
  | acceptError =>
    obtain ⟨_, rfl⟩ := step_acceptError.mp h
    rfl
  | readHeader c header =>
    obtain ⟨_, _, _, _, rfl⟩ := step_readHeader.mp h
    split <;> rfl
  | readBody c body w =>
    obtain ⟨_, _, packet, r, _, _, rfl⟩ := step_readBody.mp h
    exact (ChatServer.elim_handled w ((s.bodyRead c body).called c packet) c r).accepted
  | readError c op =>
    obtain ⟨_, _, rfl⟩ := step_readError.mp h
    rfl
  | runPosted =>
    obtain ⟨_, c, data, posted, _, rfl⟩ := step_runPosted.mp h
    dsimp only [ChatServer.onPosted]
    split <;> rfl
  | writeOk c =>
    obtain ⟨_, _, rfl⟩ := step_writeOk.mp h
    dsimp only [ChatServer.onWritten]
    split <;> rfl
  | writeError c =>
    obtain ⟨_, _, rfl⟩ := step_writeError.mp h
    rfl
  | shutdown =>
    obtain ⟨_, rfl⟩ := step_shutdown.mp h
    rfl

end Server

namespace System

open Client Server

variable {δ : Type}

/-- The system goes on with what is under way: no new connection or request, no error,
no end of the loop. -/
def Event.Advances : Event δ → Prop
  | .server (.readHeader _ _) _ => True
  | .server (.readBody _ _ w) _ => TextsFit w
  | .server .runPosted _ => True
  | .server (.writeOk _) _ => True
  | .recv _ _ => True
  | .handle _ => True
  | _ => False

theorem Event.Advances.bounded {e : Event δ} (he : e.Advances) : e.Bounded := by
  cases e with
  | server e sent =>
    cases e with
    | readBody c body w => exact he
    | _ => trivial
  | request c r => exact False.elim he
  | recv c chunk => trivial
  | handle c => trivial

theorem Event.Advances.cases {e : Server.Event δ} {sent : Nat}
    (he : Event.Advances (.server e sent)) : (∃ c header, e = .readHeader c header)
      ∨ (∃ c body w, e = .readBody c body w) ∨ e = .runPosted ∨ ∃ c, e = .writeOk c := by
  cases e with
  | readHeader c header => exact Or.inl ⟨c, header, rfl⟩
  | readBody c body w => exact Or.inr (Or.inl ⟨c, body, w, rfl⟩)
  | runPosted => exact Or.inr (Or.inr (Or.inl rfl))
  | writeOk c => exact Or.inr (Or.inr (Or.inr ⟨c, rfl⟩))
  | _ => exact False.elim he

/-! ## What is left to do -/

namespace State

/-- Over the clients that are connected. -/
def total (s : State δ) (amount : ConnId → Nat) : Nat :=
  ∑ c ∈ s.server.accepted, amount c

def unread (s : State δ) : Nat :=
  s.total fun c => (s.peer c).uplink.length

def unwritten (s : State δ) : Nat :=
  s.total fun c => (s.server.conn c).writeBuffer.length

def unreceived (s : State δ) : Nat :=
  s.total fun c => (s.peer c).downlink.length

def unhandled (s : State δ) : Nat :=
  s.total fun c => (s.peer c).readBuffer.length

def remaining (s : State δ) : Nat ×ₗ Nat ×ₗ Nat ×ₗ Nat ×ₗ Nat :=
  toLex (s.unread, toLex (s.server.posted.length,
    toLex (s.unwritten, toLex (s.unreceived, s.unhandled))))

variable {s s' : State δ}

theorem total_eq {f g : ConnId → Nat} (haccepted : s'.server.accepted = s.server.accepted)
    (h : ∀ c, g c = f c) : s'.total g = s.total f := by
  unfold total
  rw [haccepted]
  exact Finset.sum_congr rfl fun c _ => h c

theorem total_lt {f g : ConnId → Nat} {c : ConnId}
    (haccepted : s'.server.accepted = s.server.accepted) (hc : c ∈ s.server.accepted)
    (h : ∀ d, g d ≤ f d) (hlt : g c < f c) : s'.total g < s.total f := by
  unfold total
  rw [haccepted]
  exact Finset.sum_lt_sum (fun d _ => h d) ⟨c, hc, hlt⟩

/-- What one client does changes its amounts only. -/
theorem total_modify_eq {c : ConnId} {f : Peer → Peer} (amount : Peer → Nat)
    (h : amount (f (s.peer c)) = amount (s.peer c)) :
    (s.modify c f).total (fun d => amount ((s.modify c f).peer d))
      = s.total fun d => amount (s.peer d) :=
  total_eq rfl (modify_forall (P := fun d p => amount p = amount (s.peer d)) (fun _ => rfl) h)

theorem total_modify_lt {c : ConnId} {f : Peer → Peer} (amount : Peer → Nat)
    (hc : c ∈ s.server.accepted) (h : amount (f (s.peer c)) < amount (s.peer c)) :
    (s.modify c f).total (fun d => amount ((s.modify c f).peer d))
      < s.total fun d => amount (s.peer d) := by
  refine total_lt rfl hc ?_ (by rwa [modify_peer_self])
  exact modify_forall (P := fun d p => amount p ≤ amount (s.peer d)) (fun _ => Nat.le_refl _)
    (Nat.le_of_lt h)

theorem remaining_lt (h : s'.unread < s.unread ∨ s'.unread = s.unread
      ∧ (s'.server.posted.length < s.server.posted.length
        ∨ s'.server.posted.length = s.server.posted.length
      ∧ (s'.unwritten < s.unwritten ∨ s'.unwritten = s.unwritten
      ∧ (s'.unreceived < s.unreceived ∨ s'.unreceived = s.unreceived
      ∧ s'.unhandled < s.unhandled)))) : s'.remaining < s.remaining := by
  unfold remaining
  simp only [Prod.Lex.toLex_lt_toLex]
  exact h

end State

/-! ## Every step uses something up -/

section

variable {db : δ} {evs : List (Event δ)} {s s' : State δ} {c : ConnId}

/-- A read of the server takes bytes that a client has sent. -/
theorem unread_lt {e : Server.Event δ} {sent : Nat} (h : step s (.server e sent) = some s')
    (he : ∀ d, e ≠ .accept d) (hc : c ∈ s.server.accepted) (hbytes : e.bytesRead c ≠ []) :
    s'.unread < s.unread := by
  obtain ⟨hserver, hpeer⟩ := step_server h
  have hlength : ∀ d, (e.bytesRead d).length + (s'.peer d).uplink.length
      = (s.peer d).uplink.length := fun d => by
    obtain ⟨uplink, huplink, hp⟩ := hpeer d
    rw [hp, ← huplink, List.length_append]
  refine State.total_lt (accepted_of_step hserver he) hc (fun d => ?_) ?_
  · have hd := hlength d
    omega
  · have hcl := hlength c
    have hpos := List.length_pos_iff.mpr hbytes
    omega

/-- The other callbacks of the server leave what was sent to it alone. -/
theorem unread_eq {e : Server.Event δ} {sent : Nat} (h : step s (.server e sent) = some s')
    (he : ∀ d, e ≠ .accept d) (hbytes : ∀ d, e.bytesRead d = []) : s'.unread = s.unread := by
  obtain ⟨hserver, hpeer⟩ := step_server h
  refine State.total_eq (accepted_of_step hserver he) fun d => ?_
  obtain ⟨uplink, huplink, hp⟩ := hpeer d
  rw [hp, ← huplink, hbytes d]
  rfl

theorem step_readHeader_remaining {header : Bytes} {sent : Nat} (hs : Served db evs s)
    (h : step s (.server (.readHeader c header) sent) = some s') : s'.remaining < s.remaining := by
  obtain ⟨_, ⟨hreads, hlength⟩, _⟩ := step_readHeader.mp (step_server h).1
  have hhistory := writeHistory_of_exec hs.linked.run
  have hc := hhistory.targeted.reads.accepted c (List.ne_nil_of_mem hreads)
  refine State.remaining_lt (Or.inl (unread_lt h (fun _ heq => by cases heq) hc ?_))
  rw [Event.bytesRead, if_pos rfl]
  intro hnil
  rw [hnil] at hlength
  cases hlength

theorem step_readBody_remaining {body : Bytes} {w : World δ} {sent : Nat} (hs : Served db evs s)
    (h : step s (.server (.readBody c body w) sent) = some s') : s'.remaining < s.remaining := by
  obtain ⟨hserver, hpeer⟩ := step_server h
  obtain ⟨_, hreads, _⟩ := step_readBody.mp hserver
  obtain ⟨uplink, huplink, _⟩ := hpeer c
  rw [Event.bytesRead, if_pos rfl] at huplink
  have hhistory := writeHistory_of_exec hs.linked.run
  have hc := hhistory.targeted.reads.accepted c (List.ne_nil_of_mem hreads)
  -- Only requests with a body are read.
  obtain ⟨r, hr, _, rfl⟩ :=
    hs.linked.packet_of_body (hs.attentive c).bounded hreads ⟨uplink, huplink⟩
  refine State.remaining_lt (Or.inl (unread_lt h (fun _ heq => by cases heq) hc ?_))
  rw [Event.bytesRead, if_pos rfl]
  exact List.length_pos_iff.mp (readable_of_mem hr).1

theorem step_runPosted_remaining {sent : Nat}
    (h : step s (.server .runPosted sent) = some s') : s'.remaining < s.remaining := by
  obtain ⟨hserver, _⟩ := step_server h
  obtain ⟨_, d, data, posted, hposted, _⟩ := step_runPosted.mp hserver
  have hafter := (step_quiet hserver fun _ _ _ heq => by cases heq).2
  rw [postedAfter] at hafter
  refine State.remaining_lt (Or.inr ⟨unread_eq h (fun _ heq => by cases heq) fun _ => rfl,
    Or.inl ?_⟩)
  rw [hafter, hposted, List.tail_cons, List.length_cons]
  exact Nat.lt_succ_self _

/-- A write that completes is that of the front of the queue. -/
theorem step_writeOk_remaining {sent : Nat} (hs : Served db evs s)
    (h : step s (.server (.writeOk c) sent) = some s') : s'.remaining < s.remaining := by
  obtain ⟨hserver, _⟩ := step_server h
  have hhistory := writeHistory_of_exec hs.linked.run
  have hwrites : (s.server.conn c).queue.writing ≠ [] := (step_writeOk.mp hserver).2.1
  have hbuffer : (s.server.conn c).queue.buffer ≠ [] := by
    rcases hhistory.healthy_or_broken c with hhealthy | hbroken
    · exact hhealthy.writing_iff.mp hwrites
    · exact hbroken.2
  have hc : c ∈ s.server.accepted := by
    refine Classical.byContradiction fun hfresh => hbuffer ?_
    rw [(hhistory.fresh c hfresh).1]
  have hne : ∀ d, (Server.Event.writeOk c : Server.Event δ) ≠ .accept d := fun _ heq => by cases heq
  have hqueue : ∀ d, (s'.server.conn d).writeBuffer
      = ((s.server.conn d).queue.apply (queueAction s.server d (.writeOk c))).buffer := fun d =>
    congrArg WriteQueue.buffer (step_queue (hne d) hserver).1
  refine State.remaining_lt (Or.inr ⟨unread_eq h hne fun _ => rfl, Or.inr ⟨?_, Or.inl ?_⟩⟩)
  · rw [(step_quiet hserver fun _ _ _ heq => by cases heq).2]
    rfl
  · refine State.total_lt (accepted_of_step hserver hne) hc (fun d => ?_) ?_
    · rw [hqueue d, queueAction]
      split
      · exact (List.length_tail ..).trans_le (Nat.sub_le ..)
      · exact Nat.le_refl _
    · rw [hqueue c, queueAction, if_pos rfl]
      have hpos := List.length_pos_iff.mpr hbuffer
      show (s.server.conn c).queue.buffer.tail.length < (s.server.conn c).queue.buffer.length
      rw [List.length_tail]
      omega

/-- A client of the server's: whatever is on the way to another has not been written. -/
theorem Served.accepted_of_downlink (hs : Served db evs s)
    (hc : (s.peer c).received ++ (s.peer c).downlink ≠ []) : c ∈ s.server.accepted := by
  refine Classical.byContradiction fun hfresh => hc ?_
  have hexecuted := ((writeHistory_of_exec hs.linked.run).fresh c hfresh).2
  have hinitial := (hs.linked.link c).downlink.isPrefix
  rw [hexecuted] at hinitial
  exact List.prefix_nil.mp hinitial

theorem step_recv_remaining {chunk : Bytes} (hs : Served db evs s)
    (h : step s (.recv c chunk) = some s') : s'.remaining < s.remaining := by
  obtain ⟨_, hchunk, hinitial, rfl⟩ := step_recv h
  have hpos := List.length_pos_iff.mpr hchunk
  have hle := hinitial.length_le
  have hdownlink : (s.peer c).downlink ≠ [] := fun hnil => by
    rw [hnil] at hle
    exact absurd (Nat.le_zero.mp hle) (Nat.ne_of_gt hpos)
  have hc := hs.accepted_of_downlink fun hnil => hdownlink (List.append_eq_nil_iff.mp hnil).2
  refine State.remaining_lt (Or.inr ⟨?_, Or.inr ⟨rfl, Or.inr ⟨rfl, Or.inl ?_⟩⟩⟩)
  · exact State.total_modify_eq (fun p => p.uplink.length) rfl
  · refine State.total_modify_lt (fun p => p.downlink.length) hc ?_
    rw [Peer.recv, List.length_drop]
    omega

theorem step_handle_remaining (hs : Served db evs s) (h : step s (.handle c) = some s') :
    s'.remaining < s.remaining := by
  obtain ⟨packet, rest, invocations, hframe, hsplit, _, rfl⟩ := step_handle h
  have hpacket : 0 < packet.length := Nat.lt_of_lt_of_le (by decide) hframe.1
  have hlength : packet.length + rest.length = (s.peer c).readBuffer.length := by
    rw [← hsplit, List.length_append]
  have hc : c ∈ s.server.accepted := by
    refine hs.accepted_of_downlink fun hnil => ?_
    have hbytes := (hs.linked.link c).client.bytes
    rw [(List.append_eq_nil_iff.mp hnil).1] at hbytes
    rw [(List.append_eq_nil_iff.mp hbytes).2] at hlength
    exact absurd hlength (by simp only [List.length_nil]; omega)
  refine State.remaining_lt (Or.inr ⟨?_, Or.inr ⟨rfl, Or.inr ⟨rfl, Or.inr ⟨?_, ?_⟩⟩⟩⟩)
  · exact State.total_modify_eq (fun p => p.uplink.length) rfl
  · exact State.total_modify_eq (fun p => p.downlink.length) rfl
  · exact State.total_modify_lt (fun p => p.readBuffer.length) hc
      ((Nat.lt_add_of_pos_left hpacket).trans_eq hlength)

theorem step_remaining {e : Event δ} (hs : Served db evs s) (he : e.Advances)
    (h : step s e = some s') : s'.remaining < s.remaining := by
  cases e with
  | server e sent =>
    rcases he.cases with ⟨c, header, rfl⟩ | ⟨c, body, w, rfl⟩ | rfl | ⟨c, rfl⟩
    · exact step_readHeader_remaining hs h
    · exact step_readBody_remaining hs h
    · exact step_runPosted_remaining h
    · exact step_writeOk_remaining hs h
  | request c r => exact False.elim he
  | recv c chunk => exact step_recv_remaining hs h
  | handle c => exact step_handle_remaining hs h

end

/-- Some run of bounded events leads to the state. -/
def Reached (db : δ) (s : State δ) : Prop :=
  ∃ evs, exec step (.init db) evs = some s ∧ ∀ e ∈ evs, e.Bounded

theorem advances_uses (db : δ) :
    Uses step Event.Advances (Reached db) (State.remaining : State δ → _) where
  keeps := fun {s e s'} he ⟨evs, hrun, hbounded⟩ hstep => by
    refine ⟨evs ++ [e], exec_append.mpr ⟨s, hrun, exec_cons.mpr ⟨s', hstep, rfl⟩⟩, ?_⟩
    rw [List.forall_mem_append]
    exact ⟨hbounded, fun e' he' => List.mem_singleton.mp he' ▸ he.bounded⟩
  less := fun he ⟨_, hrun, hbounded⟩ hstep =>
    step_remaining (served_of_exec hrun hbounded) he hstep

/-! ## Where it ends -/

/-- Outside the process, something can always be answered. -/
theorem textsFit_offline : TextsFit (offline : World δ) where
  username := fun h => by cases h
  question := fun h => by cases h

section

variable {db : δ} {evs es : List (Event δ)} {s t : State δ} {c : ConnId}

theorem none_of_settled {e : Event δ} (h : Settled step Event.Advances s) (he : e.Advances) :
    ¬ (step s e).isSome := by
  rw [h e he]
  exact Bool.false_ne_true

/-- The read in flight cannot be filled. -/
theorem Served.starved_of_settled (hs : Served db evs s) (hrunning : s.server.running = true)
    (h : Settled step Event.Advances s) {op : ReadOp} (hop : op ∈ (s.server.conn c).reads) :
    (s.peer c).uplink.length < op.size := by
  refine Nat.lt_of_not_le fun hle => ?_
  have hlength : ((s.peer c).uplink.take op.size).length = op.size := by
    rw [List.length_take, Nat.min_eq_left hle]
  have hinitial := List.take_prefix op.size (s.peer c).uplink
  cases op with
  | header =>
    exact none_of_settled (e := .server (.readHeader c _) 0) h trivial
      (readHeader_isSome hrunning hop hlength hinitial)
  | body length =>
    have hreads : .body ((s.peer c).uplink.take length).length ∈ (s.server.conn c).reads := by
      rwa [show ((s.peer c).uplink.take length).length = length from hlength]
    exact none_of_settled (e := .server (.readBody c _ offline) 0) h textsFit_offline
      (hs.readBody_isSome hrunning hreads hinitial offline)

/-- Nothing waits on the way to the client. -/
theorem Served.delivered_of_settled (hs : Served db evs s) (hrunning : s.server.running = true)
    (h : Settled step Event.Advances s) (hhealthy : .writeError c ∉ serverEvents evs) :
    Delivered evs s c := by
  have hbuffer : ¬ wire.Complete (s.peer c).readBuffer := fun hcomplete =>
    none_of_settled (e := .handle c) h trivial (hs.handle_isSome hcomplete)
  have hposted : s.server.posted = [] := by
    cases hposted : s.server.posted with
    | nil => rfl
    | cons p posted =>
      exact absurd (step_server_isSome 0 (step_runPosted.mpr
        ⟨hrunning, p.1, p.2, posted, hposted, rfl⟩) rfl)
        (none_of_settled (e := .server .runPosted 0) h trivial)
  refine ⟨fun p hp => ?_, ?_, hhealthy, ?_, hbuffer⟩
  · rw [hposted] at hp
    cases hp
  · refine Classical.byContradiction fun hwrites => ?_
    exact none_of_settled (e := .server (.writeOk c) 0) h trivial
      (step_server_isSome 0 (step_writeOk.mpr ⟨hrunning, hwrites, rfl⟩) rfl)
  · refine Classical.byContradiction fun hdownlink => ?_
    refine none_of_settled (e := .recv c (s.peer c).downlink) h trivial ?_
    have hnone : takePacket (s.peer c).readBuffer = some none := by
      rw [takePacket_eq, if_neg hbuffer]
    show (if _ then _ else _ : Option (State δ)).isSome
    rw [if_pos ⟨hnone, hdownlink, List.prefix_refl _⟩]
    rfl

/-- What advances is no error. -/
theorem Event.Advances.errorless (hes : ∀ e ∈ es, e.Advances) {e : Server.Event δ}
    (he : e ∈ serverEvents es) :
    (∀ op, e ≠ .readError c op) ∧ e ≠ .writeError c := by
  obtain ⟨e', he', heq⟩ := List.mem_filterMap.mp he
  cases e' with
  | server e' sent =>
    cases heq
    rcases (hes _ he').cases with ⟨_, _, rfl⟩ | ⟨_, _, _, rfl⟩ | rfl | ⟨_, rfl⟩ <;>
      exact ⟨(fun _ heq => by cases heq), fun heq => by cases heq⟩
  | _ => cases heq

theorem advances_keeps (hes : ∀ e ∈ es, e.Advances) (h : exec step s es = some t) :
    (s.server.running = true → t.server.running = true)
      ∧ ∀ c, (t.peer c).requests = (s.peer c).requests := by
  refine exec_invariant (E := Event.Advances) (I := fun t =>
    (s.server.running = true → t.server.running = true)
      ∧ ∀ c, (t.peer c).requests = (s.peer c).requests)
    (fun {m e m'} he hm hstep => ?_) hes ⟨id, fun _ => rfl⟩ h
  cases e with
  | server e sent =>
    obtain ⟨hserver, hpeer⟩ := step_server hstep
    refine ⟨fun _ => running_of_step hserver fun heq => ?_, fun c => ?_⟩
    · rw [heq] at he
      exact he
    · obtain ⟨_, _, hp⟩ := hpeer c
      rw [hp]
      exact hm.2 c
  | request c r => exact False.elim he
  | recv c chunk =>
    obtain ⟨_, _, _, rfl⟩ := step_recv hstep
    exact ⟨hm.1, State.modify_forall (P := fun d p => p.requests = (s.peer d).requests) hm.2
      (hm.2 c)⟩
  | handle c =>
    obtain ⟨_, _, _, _, _, _, rfl⟩ := step_handle hstep
    exact ⟨hm.1, State.modify_forall (P := fun d p => p.requests = (s.peer d).requests) hm.2
      (hm.2 c)⟩

/-- **What is under way comes to an end, and then all of it is done.** From any state
that the server and its clients can get into, if nothing new comes from outside and
nothing fails any more, they cannot go on forever; they can go on until nothing is left
to do; and whichever way they went, then each connected client that has had no error has
had its readable requests handed over, has handled every buffer sent to it, and has had
its callback called once for each request that is answered, in the order of the requests. -/
theorem drains (h : exec step (.init db) evs = some s) (hbounded : ∀ e ∈ evs, e.Bounded) :
    (¬ ∃ run : Nat → State δ, run 0 = s
        ∧ ∀ n, ∃ e : Event δ, e.Advances ∧ step (run n) e = some (run (n + 1)))
      ∧ (∃ es t, (∀ e ∈ es, Event.Advances e) ∧ exec step s es = some t
        ∧ Settled step Event.Advances t)
      ∧ ∀ es t, (∀ e ∈ es, Event.Advances e) → exec step s es = some t →
        Settled step Event.Advances t → s.server.running = true → ∀ c,
        .accept c ∈ serverEvents evs → (∀ op, .readError c op ∉ serverEvents evs) →
        .writeError c ∉ serverEvents evs →
        handledOn c t.server.calls = (readable (s.peer c).requests).map packetOf
          ∧ (t.peer c).handled = buffersOn c (sendsOf t.server.calls)
          ∧ ((t.peer c).invocations.map Invocation.slot).filter
              (fun slot => slot ≠ .messageCallback)
            = (answered (s.peer c).requests).filterMap Request.slot := by
  have hreached : Reached db s := ⟨evs, h, hbounded⟩
  refine ⟨(advances_uses db).not_forever hreached, (advances_uses db).exists_settled hreached, ?_⟩
  intro es t hes ht hsettled hrunning c haccept hreads hwrites
  have hs : Served db (evs ++ es) t := by
    refine served_of_exec (exec_append.mpr ⟨s, h, ht⟩) ?_
    exact List.forall_mem_append.mpr ⟨hbounded, fun e he => (hes e he).bounded⟩
  obtain ⟨hkept, hrequests⟩ := advances_keeps hes ht
  have hdrained : Drained (evs ++ es) t c := by
    refine ⟨?_, fun op hop => ?_, fun op hop => hs.starved_of_settled (hkept hrunning) hsettled hop⟩
    · rw [serverEvents_append]
      exact List.mem_append_left _ haccept
    · rw [serverEvents_append] at hop
      rcases List.mem_append.mp hop with hop | hop
      · exact hreads op hop
      · exact (Event.Advances.errorless hes hop).1 op rfl
  have hdelivered : Delivered (evs ++ es) t c := by
    refine hs.delivered_of_settled (hkept hrunning) hsettled fun hfailed => ?_
    rw [serverEvents_append] at hfailed
    rcases List.mem_append.mp hfailed with hfailed | hfailed
    · exact hwrites hfailed
    · exact (Event.Advances.errorless hes hfailed).2 rfl
  obtain ⟨hhandled, hcalled⟩ := hs.all_called hdrained hdelivered
  rw [← hrequests c]
  exact ⟨hs.linked.handledOn_eq (hs.attentive c).bounded hdrained, hhandled, hcalled⟩

end

/-- The header of the login has been read. However it goes on, the callback comes. -/
theorem drains_login : ∃ s, exec step (.init ()) (loginExchange.take 3) = some s
    ∧ ∃ es t, exec step s es = some t
      ∧ ((t.peer 1).invocations.map Invocation.slot).filter (fun slot => slot ≠ .messageCallback)
        = [.loginCallback] := by
  have hrun : (exec step (.init ()) (loginExchange.take 3)).map (fun s =>
      (s.server.running, (s.peer 1).requests)) = some (true, [.login ⟨[97], []⟩]) := by
    decide +kernel
  obtain ⟨s, hs, hfinal⟩ := Option.map_eq_some_iff.mp hrun
  simp only [Prod.mk.injEq] at hfinal
  obtain ⟨hrunning, hrequests⟩ := hfinal
  have hbounded : ∀ e ∈ loginExchange.take 3, e.Bounded := fun e he =>
    bounded_loginExchange e (List.mem_of_mem_take he)
  obtain ⟨_, ⟨es, t, hes, ht, hsettled⟩, hall⟩ := drains hs hbounded
  obtain ⟨_, _, hcalled⟩ := hall es t hes ht hsettled hrunning 1
    (by simp [serverEvents, loginExchange]) (by simp [serverEvents, loginExchange])
    (by simp [serverEvents, loginExchange])
  refine ⟨s, hs, es, t, ht, ?_⟩
  rw [hcalled, hrequests]
  decide +kernel

end System

end QQChat
