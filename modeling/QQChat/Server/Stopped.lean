import QQChat.Server.Reader

/-!
# Packets of stopped connections

`step_calls` says which of `handle_message` and `stop` a step calls; everything
else a step records is a `send`. Over a run this settles whether a connection
that the manager has stopped is ever handed a packet again: `stop` neither
closes the socket nor cancels what is in flight, so it is, but only where the
stop came from the write side and a read was still pending (`stopped_iff`). A
read that fails, or a header that is refused, was the connection's only read.
-/

namespace QQChat.Server

open Trace ChatServer

variable {δ : Type}

/-! ## The calls of a step -/

/-- What a step calls before anything is sent. -/
def loopCalls (s : ChatServer δ) (e : Event δ) : List Call :=
  match e with
  | .readBody c body _ =>
    match ((s.bodyRead c body).conn c).packet with
    | some packet => [.handleMessage c packet]
    | none => []
  | e =>
    match e.stopped with
    | some c => [.stop c]
    | none => []

section

variable {wiring : Wiring} {s s' : ChatServer δ} {e : Event δ}

theorem calls_onPosted (s : ChatServer δ) (c : ConnId) (data : Bytes) :
    (s.onPosted c data).calls = s.calls := by
  dsimp only [onPosted]
  split <;> rfl

theorem calls_onWritten (s : ChatServer δ) (c : ConnId) : (s.onWritten c).calls = s.calls := by
  dsimp only [onWritten]
  split <;> rfl

theorem posted_onPosted (s : ChatServer δ) (c : ConnId) (data : Bytes) :
    (s.onPosted c data).posted = s.posted := by
  dsimp only [onPosted]
  split <;> rfl

theorem posted_onWritten (s : ChatServer δ) (c : ConnId) :
    (s.onWritten c).posted = s.posted := by
  dsimp only [onWritten]
  split <;> rfl

/-- What a step does to the executor's queue if nothing is sent. -/
def postedAfter (s : ChatServer δ) (e : Event δ) : List (ConnId × Bytes) :=
  match e with
  | .runPosted => s.posted.tail
  | _ => s.posted

/-- Only a dispatched packet sends. -/
theorem step_quiet (h : step wiring s e = some s') (he : ∀ c body w, e ≠ .readBody c body w) :
    s'.calls = s.calls ++ loopCalls s e ∧ s'.posted = postedAfter s e := by
  cases e with
  | accept c =>
    obtain ⟨_, _, rfl⟩ := step_accept.mp h
    refine ⟨(?_ : _ = s.calls).trans (List.append_nil _).symm, ?_⟩
    · cases wiring <;> rfl
    · cases wiring <;> rfl
  | acceptError =>
    obtain ⟨_, rfl⟩ := step_acceptError.mp h
    exact ⟨(List.append_nil _).symm, rfl⟩
  | readHeader c header =>
    obtain ⟨_, _, bodyLength, hlength, rfl⟩ := step_readHeader.mp h
    dsimp only [loopCalls]
    rw [stopped_readHeader hlength]
    split
    · exact ⟨(List.append_nil _).symm, rfl⟩
    · exact ⟨rfl, rfl⟩
  | readBody c body w => exact absurd rfl (he c body w)
  | readError c op =>
    obtain ⟨_, _, rfl⟩ := step_readError.mp h
    exact ⟨rfl, rfl⟩
  | runPosted =>
    obtain ⟨_, c, data, posted, hposted, rfl⟩ := step_runPosted.mp h
    refine ⟨(calls_onPosted _ c data).trans (List.append_nil _).symm, ?_⟩
    rw [posted_onPosted, postedAfter, hposted]
    rfl
  | writeOk c =>
    obtain ⟨_, _, rfl⟩ := step_writeOk.mp h
    exact ⟨(calls_onWritten s c).trans (List.append_nil _).symm, posted_onWritten s c⟩
  | writeError c =>
    obtain ⟨_, _, rfl⟩ := step_writeError.mp h
    exact ⟨rfl, rfl⟩
  | shutdown =>
    obtain ⟨_, rfl⟩ := step_shutdown.mp h
    exact ⟨(List.append_nil _).symm, rfl⟩

theorem step_calls (h : step wiring s e = some s') : ∃ sends : List (ConnId × Bytes),
    s'.calls = s.calls ++ (loopCalls s e ++ sends.map fun p => .send p.1 p.2) := by
  rcases e.readBody_or_ne with ⟨c, body, w, rfl⟩ | he
  · obtain ⟨_, _, packet, r, hpacket, _, rfl⟩ := step_readBody.mp h
    obtain ⟨sends, _, hcalls⟩ := (elim_handled w ((s.bodyRead c body).called c packet) c r).sends
    refine ⟨sends, ?_⟩
    dsimp only [loopCalls]
    rw [hpacket]
    refine hcalls.trans ?_
    show (s.calls ++ [.handleMessage c packet]) ++ _ = _
    rw [List.append_assoc]
  · have hquiet := step_quiet h he
    exact ⟨[], hquiet.1.trans (congrArg _ (List.append_nil _).symm)⟩

theorem mem_loopCalls_stop {c : ConnId} : .stop c ∈ loopCalls s e ↔ e.stopped = some c := by
  unfold loopCalls
  split
  · split
    · simp [Event.stopped]
    · simp [Event.stopped]
  · split
    next d hd => simp [hd, eq_comm]
    next hd => simp [hd]

theorem mem_loopCalls_handleMessage {c : ConnId} {packet : Packet}
    (h : .handleMessage c packet ∈ loopCalls s e) : ∃ body w, e = .readBody c body w := by
  unfold loopCalls at h
  split at h
  next d body w =>
    split at h
    · cases List.mem_singleton.mp h
      exact ⟨body, w, rfl⟩
    · cases h
  · split at h
    · cases List.mem_singleton.mp h
    · cases h

/-- Sends are neither stops nor packets handed over. -/
theorem mem_calls_of_step {call : Call} (hsend : ∀ c data, call ≠ .send c data)
    (h : step wiring s e = some s') :
    call ∈ s'.calls ↔ call ∈ s.calls ∨ call ∈ loopCalls s e := by
  obtain ⟨sends, hcalls⟩ := step_calls h
  rw [hcalls, List.mem_append, List.mem_append]
  refine or_congr_right (or_iff_left fun hmem => ?_)
  obtain ⟨p, _, heq⟩ := List.mem_map.mp hmem
  exact hsend p.1 p.2 heq.symm

/-- A step does not stop a connection and hand its packet over too. -/
theorem before_calls_of_step {c : ConnId} {packet : Packet} (h : step wiring s e = some s') :
    Before (.stop c) (.handleMessage c packet) s'.calls
      ↔ Before (.stop c) (.handleMessage c packet) s.calls
        ∨ (.stop c ∈ s.calls ∧ .handleMessage c packet ∈ loopCalls s e) := by
  obtain ⟨sends, hcalls⟩ := step_calls h
  have hsend : ∀ call, (∀ c data, call ≠ .send c data) →
      call ∈ loopCalls s e ++ sends.map (fun p => .send p.1 p.2) → call ∈ loopCalls s e := by
    intro call hne hmem
    refine (List.mem_append.mp hmem).resolve_right fun hsends => ?_
    obtain ⟨p, _, heq⟩ := List.mem_map.mp hsends
    exact hne p.1 p.2 heq.symm
  have hstop := hsend (.stop c) (fun _ _ heq => nomatch heq)
  have hhandle := hsend (.handleMessage c packet) (fun _ _ heq => nomatch heq)
  rw [hcalls, before_append]
  refine or_congr_right ⟨?_, ?_⟩
  · intro h'
    rcases h' with ⟨hc, hp⟩ | hboth
    · exact ⟨hc, hhandle hp⟩
    · -- Both in one step: the event would be a body and a stop at once.
      have hc := hstop (hboth.subset (List.mem_cons_self ..))
      have hp := hhandle (hboth.subset (List.mem_cons_of_mem _ (List.mem_cons_self ..)))
      obtain ⟨body, w, rfl⟩ := mem_loopCalls_handleMessage hp
      exact absurd (mem_loopCalls_stop.mp hc) (fun heq => nomatch heq)
  · intro ⟨hc, hp⟩
    exact Or.inl ⟨hc, List.mem_append_left _ hp⟩

end

/-! ## Reads of a stopped connection -/

/-- No connection has two reads in flight, and one that has a read was accepted. -/
structure ReadsBounded (s : ChatServer δ) : Prop where
  length_le : ∀ c, (s.conn c).reads.length ≤ 1
  accepted : ∀ c, (s.conn c).reads ≠ [] → c ∈ s.accepted

section

variable {s s' : ChatServer δ} {e : Event δ}

/-- Completing the only read leaves none, until the callback starts the next. -/
theorem erase_eq_nil {l : List ReadOp} {op : ReadOp} (hl : l.length ≤ 1) (ha : op ∈ l) :
    l.erase op = [] := by
  refine List.eq_nil_of_length_eq_zero ?_
  rw [List.length_erase_of_mem ha]
  omega

theorem step_readsBounded {wiring : Wiring} (hs : ReadsBounded s)
    (h : step wiring s e = some s') : ReadsBounded s' := by
  constructor
  · intro d
    rcases step_reads_cases h d with
      ⟨heq, _⟩ | ⟨_, _, hreads⟩ | ⟨_, op, hmem, next, hreads, hle, _⟩
    · rw [heq]
      exact hs.length_le d
    · rw [hreads]
      cases wiring <;> decide
    · rw [hreads, erase_eq_nil (hs.length_le d) hmem]
      exact hle
  · intro d hd
    rcases step_reads_cases h d with ⟨heq, _⟩ | ⟨rfl, _, _⟩ | ⟨_, op, hmem, _⟩
    · rw [heq] at hd
      exact accepted_subset h (hs.accepted d hd)
    · exact mem_accepted_of_accept h
    · exact accepted_subset h (hs.accepted d (List.ne_nil_of_mem hmem))

/-- A connection without a read never has one again. -/
theorem step_reads_nil {d : ConnId} (hd : d ∈ s.accepted) (hnil : (s.conn d).reads = [])
    (h : step .started s e = some s') : (s'.conn d).reads = [] := by
  rcases step_reads_cases h d with ⟨heq, _⟩ | ⟨_, hfresh, _⟩ | ⟨_, op, hmem, _⟩
  · rw [heq, hnil]
  · exact absurd hd hfresh
  · rw [hnil] at hmem
    cases hmem

/-- A connection stopped by its read side has no read left. -/
theorem reads_nil_of_stopped {d : ConnId} (hs : ReadsBounded s)
    (h : step .started s e = some s') (hd : e.stopped = some d) :
    e = .writeError d ∨ (d ∈ s.accepted ∧ (s'.conn d).reads = []) := by
  rcases step_reads_cases h d with
    ⟨_, _, hwrite⟩ | ⟨rfl, _, _⟩ | ⟨_, op, hmem, next, hreads, _, hnil⟩
  · exact Or.inl (hwrite hd)
  · cases hd
  · refine Or.inr ⟨hs.accepted d (List.ne_nil_of_mem hmem), ?_⟩
    rw [hreads, erase_eq_nil (hs.length_le d) hmem, hnil.mpr hd]
    rfl

end

/-! ## Over a run -/

/-- What the events so far say about the stops and the packets so far. -/
structure StopHistory (evs : List (Event δ)) (s : ChatServer δ) : Prop where
  bounded : ReadsBounded s
  stopped : ∀ c, .stop c ∈ s.calls →
    .writeError c ∈ evs ∨ (c ∈ s.accepted ∧ (s.conn c).reads = [])
  failed : ∀ c, .writeError c ∈ evs → .stop c ∈ s.calls
  before : (∀ c packet, ¬ Before (.stop c) (.handleMessage c packet) s.calls)
    ↔ ∀ c body w, ¬ Before (.writeError c) (.readBody c body w) evs

theorem stopHistory_init (db : δ) : StopHistory [] (ChatServer.init db) where
  bounded := ⟨fun _ => Nat.zero_le 1, fun _ hne => absurd rfl hne⟩
  stopped := fun _ h => absurd h List.not_mem_nil
  failed := fun _ h => absurd h List.not_mem_nil
  before := iff_of_true (fun _ _ => not_before_nil) fun _ _ _ => not_before_nil

/-- A packet arrives on a connection that was stopped exactly if a write of it
had failed: with a read in flight, nothing else can have stopped it. -/
theorem StopHistory.stop_iff {evs : List (Event δ)} {s : ChatServer δ} (hs : StopHistory evs s)
    {c : ConnId} (hc : (s.conn c).reads ≠ []) : .stop c ∈ s.calls ↔ .writeError c ∈ evs :=
  ⟨fun h => (hs.stopped c h).resolve_right fun hnil => hc hnil.2, hs.failed c⟩

theorem StopHistory.snoc {evs : List (Event δ)} {s s' : ChatServer δ} {e : Event δ}
    (hs : StopHistory evs s) (h : step .started s e = some s') : StopHistory (evs ++ [e]) s' := by
  have hcalls : ∀ {c}, .stop c ∈ s'.calls ↔ .stop c ∈ s.calls ∨ e.stopped = some c := by
    intro c
    have hsend : ∀ d data, Call.stop c ≠ .send d data := fun _ _ heq => nomatch heq
    rw [mem_calls_of_step hsend h, mem_loopCalls_stop]
  refine ⟨step_readsBounded hs.bounded h, ?_, ?_, ?_⟩
  · -- A stop of the read side leaves no read, and none comes back.
    intro c hc
    rw [List.mem_append, List.mem_singleton]
    rcases hcalls.mp hc with hold | hnew
    · rcases hs.stopped c hold with hfailed | ⟨haccepted, hnil⟩
      · exact Or.inl (Or.inl hfailed)
      · exact Or.inr ⟨accepted_subset h haccepted, step_reads_nil haccepted hnil h⟩
    · rcases reads_nil_of_stopped hs.bounded h hnew with rfl | ⟨haccepted, hnil⟩
      · exact Or.inl (Or.inr rfl)
      · exact Or.inr ⟨accepted_subset h haccepted, hnil⟩
  · -- A failed write always has the connection stopped.
    intro c hc
    rcases List.mem_append.mp hc with hold | hnew
    · exact hcalls.mpr (Or.inl (hs.failed c hold))
    · rw [← List.mem_singleton.mp hnew] at hcalls
      exact hcalls.mpr (Or.inr rfl)
  · -- Only the last step is new: it hands a packet over, or it does not.
    simp only [before_calls_of_step h, before_singleton, not_or, forall_and]
    refine and_congr hs.before ?_
    constructor
    · intro hnone c body w ⟨hfailed, he⟩
      subst he
      obtain ⟨_, hmem, packet, _, hpacket, _⟩ := step_readBody.mp h
      refine hnone c packet ⟨hs.failed c hfailed, ?_⟩
      dsimp only [loopCalls]
      rw [hpacket]
      exact List.mem_singleton_self _
    · intro hnone c packet ⟨hstop, hpacket⟩
      obtain ⟨body, w, rfl⟩ := mem_loopCalls_handleMessage hpacket
      have hreads := List.ne_nil_of_mem (step_readBody.mp h).2.1
      exact hnone c body w ⟨(hs.stop_iff hreads).mp hstop, rfl⟩

/-- **Stopped means stopped, unless the write side said so**: in a run no packet
of a connection is handled after the manager has stopped it if and only if no
body arrives on a connection after one of its writes has failed. -/
theorem stopped_iff {db : δ} {evs : List (Event δ)} {s : ChatServer δ}
    (h : exec (step .started) (.init db) evs = some s) :
    (∀ c packet, ¬ Before (.stop c) (.handleMessage c packet) s.calls)
      ↔ ∀ c body w, ¬ Before (.writeError c) (.readBody c body w) evs :=
  (exec_induction (stopHistory_init db) (fun hs hstep => hs.snoc hstep) h).before

/-- A login whose answer is written before the client leaves. -/
def answeredLogin : List (Event Unit) :=
  .accept 1 :: loginA 1 ++ [.runPosted, .writeOk 1, .readError 1 .header]

theorem stopped_iff_answeredLogin : ∃ s, exec (step .started) (.init ()) answeredLogin = some s
    ∧ ((∀ c packet, ¬ Before (.stop c) (.handleMessage c packet) s.calls)
      ↔ ∀ c body w, ¬ Before (.writeError c) (.readBody c body w) answeredLogin) := by
  have hrun : (exec (step .started) (.init ()) answeredLogin).isSome = true := by decide
  obtain ⟨s, hs⟩ := Option.isSome_iff_exists.mp hrun
  exact ⟨s, hs, stopped_iff hs⟩

/-- User 1's answer is being written when the next packet begins to arrive; the
write fails, the connection is stopped, and the packet is handled all the same. -/
def lateBody : List (Event Unit) :=
  .accept 1 :: loginA 1 ++ [.runPosted, .writeError 1] ++ loginB 1

/-- User 2 logs in on a connection that the manager has forgotten. -/
theorem not_stopped_lateBody : ∃ s, exec (step .started) (.init ()) lateBody = some s
    ∧ Before (.stop 1) (.handleMessage 1 ⟨VERSION, .loginReq, [0, 1, 98, 0, 0]⟩) s.calls
    ∧ 1 ∉ s.connections ∧ s.userToConn 2 = some 1 := by
  have hrun : (exec (step .started) (.init ()) lateBody).map (fun s =>
      (s.calls.filter (fun call => !call matches .send ..), decide (1 ∈ s.connections),
        s.userToConn 2))
        = some ([.handleMessage 1 ⟨VERSION, .loginReq, [0, 1, 97, 0, 0]⟩, .stop 1,
            .handleMessage 1 ⟨VERSION, .loginReq, [0, 1, 98, 0, 0]⟩], false, some 1) := by decide
  obtain ⟨s, hs, hfinal⟩ := Option.map_eq_some_iff.mp hrun
  injection hfinal with hcalls hrest
  injection hrest with hlive hentry
  have hsublist := List.filter_sublist (l := s.calls) (p := fun call => !call matches .send ..)
  rw [hcalls] at hsublist
  refine ⟨s, hs, ?_, of_decide_eq_false hlive, hentry⟩
  exact (List.sublist_cons_self _ _).trans hsublist

end QQChat.Server
