import QQChat.Server.Sessions

/-!
# The read side of a connection

A connection's header buffer and its reads in flight (`Input`) are a little
machine of their own: which read is started next depends on the event and on
nothing else in the server (`step_input`). What a dispatched packet does to the
rest of the server does not show here, and neither do the other connections.

The first use is the read pump: whether a registered connection has exactly one
read in flight. As the code is wired no connection ever has one
(`oneRead_iff`); were `Connection::start` called, every registered connection
would have exactly one in every run (`oneRead_started`).
-/

namespace QQChat.Server

open Trace ChatServer

variable {δ : Type}

/-! ## The machine -/

structure Input where
  headerBuffer : Bytes
  reads : List ReadOp
  deriving DecidableEq, Repr

def Connection.input (conn : Connection) : Input where
  headerBuffer := conn.headerBuffer
  reads := conn.reads

/-- The reads in flight on a connection just accepted. -/
def Wiring.reads : Wiring → List ReadOp
  | .asWritten => []
  | .started => [.header]

/-- The read a completed header leads to: none if the connection is stopped. -/
def announced (header : Bytes) : List ReadOp :=
  match readUint32 header 3 with
  | some bodyLength => if Acceptable bodyLength then [.body bodyLength.toNat] else []
  | none => []

/-- What an event does to the input of connection `d`. -/
def inputAfter (wiring : Wiring) (d : ConnId) (e : Event δ) (input : Input) : Input :=
  match e with
  | .accept c =>
    if c = d then { headerBuffer := List.replicate HEADER_SIZE 0, reads := wiring.reads }
    else input
  | .readHeader c header =>
    if c = d then
      { headerBuffer := header, reads := input.reads.erase .header ++ announced header }
    else input
  | .readBody c body _ =>
    if c = d then { input with reads := input.reads.erase (.body body.length) ++ [.header] }
    else input
  | .readError c op => if c = d then { input with reads := input.reads.erase op } else input
  | _ => input

theorem input_modify (s : ChatServer δ) (c d : ConnId) {f : Connection → Connection}
    (hf : ∀ conn, (f conn).input = conn.input) :
    ((s.modify c f).conn d).input = (s.conn d).input := by
  by_cases hd : d = c
  · rw [hd, modify_conn_self, hf]
  · rw [modify_conn_of_ne s hd]

theorem ChatServer.Handled.input {s s' : ChatServer δ} (h : Handled s s') (d : ConnId) :
    (s'.conn d).input = (s.conn d).input := by
  obtain ⟨_, hd⟩ := h.conn d
  rw [hd]
  rfl

theorem input_doWrite (s : ChatServer δ) (c : ConnId) (data : Bytes) (d : ConnId) :
    ((s.doWrite c data).conn d).input = (s.conn d).input :=
  input_modify s c d fun _ => rfl

theorem input_onPosted (s : ChatServer δ) (c : ConnId) (data : Bytes) (d : ConnId) :
    ((s.onPosted c data).conn d).input = (s.conn d).input := by
  dsimp only [onPosted]
  split
  · exact input_modify s c d fun _ => rfl
  · rw [input_doWrite]
    exact input_modify s c d fun _ => rfl

theorem input_onWritten (s : ChatServer δ) (c d : ConnId) :
    ((s.onWritten c).conn d).input = (s.conn d).input := by
  dsimp only [onWritten]
  split
  · exact input_modify s c d fun _ => rfl
  · rw [input_doWrite]
    exact input_modify s c d fun _ => rfl

section

variable {wiring : Wiring} {s s' : ChatServer δ} {e : Event δ}

theorem input_doAccept (wiring : Wiring) (s : ChatServer δ) (c d : ConnId) :
    ((s.doAccept wiring c).conn d).input
      = inputAfter wiring d (.accept (δ := δ) c) (s.conn d).input := by
  by_cases hd : c = d
  · subst hd
    cases wiring <;>
      simp [doAccept, start, doReadHeader, inputAfter, Connection.input, Wiring.reads]
  · have hne : d ≠ c := Ne.symm hd
    cases wiring <;> simp [doAccept, start, doReadHeader, inputAfter, hd, hne]

/-- **The read side depends on the events only.** -/
theorem step_input (h : step wiring s e = some s') (d : ConnId) :
    (s'.conn d).input = inputAfter wiring d e (s.conn d).input := by
  cases e with
  | accept c =>
    obtain ⟨_, _, rfl⟩ := step_accept.mp h
    exact input_doAccept wiring s c d
  | acceptError =>
    obtain ⟨_, rfl⟩ := step_acceptError.mp h
    rfl
  | readHeader c header =>
    -- Only the connection of the header is told to read a body, or stopped.
    obtain ⟨_, _, bodyLength, hlength, rfl⟩ := step_readHeader.mp h
    by_cases hd : c = d
    · subst hd
      dsimp only [inputAfter]
      rw [if_pos rfl, announced, hlength]
      dsimp only
      split
      · simp [expectBody, doReadBody, headerRead, Connection.input]
      · simp [stop, headerRead, Connection.input]
    · have hne : d ≠ c := Ne.symm hd
      dsimp only [inputAfter]
      rw [if_neg hd]
      split
      · simp [expectBody, doReadBody, headerRead, hne]
      · simp [stop, headerRead, hne]
  | readBody c body w =>
    -- Whatever the handler does, it leaves the read side of every connection alone.
    obtain ⟨_, _, packet, r, _, _, rfl⟩ := step_readBody.mp h
    have hhandled := (elim_handled w ((s.bodyRead c body).called c packet) c r).input d
    by_cases hd : c = d
    · subst hd
      simp only [doReadHeader, modify_conn_self, inputAfter]
      simp only [Connection.input, Input.mk.injEq] at hhandled ⊢
      rw [hhandled.1, hhandled.2]
      simp [called, bodyRead]
    · have hne : d ≠ c := Ne.symm hd
      simp only [doReadHeader, modify_conn_of_ne _ hne, inputAfter, if_neg hd]
      rw [hhandled]
      simp [called, bodyRead, hne]
  | readError c op =>
    obtain ⟨_, _, rfl⟩ := step_readError.mp h
    by_cases hd : c = d
    · subst hd
      simp [onReadError, stop, inputAfter, Connection.input]
    · have hne : d ≠ c := Ne.symm hd
      simp [onReadError, stop, inputAfter, hd, hne]
  | runPosted =>
    obtain ⟨_, c, data, posted, _, rfl⟩ := step_runPosted.mp h
    exact input_onPosted _ c data d
  | writeOk c =>
    obtain ⟨_, _, rfl⟩ := step_writeOk.mp h
    exact input_onWritten s c d
  | writeError c =>
    obtain ⟨_, _, rfl⟩ := step_writeError.mp h
    have hwrite : ((s.modify c fun conn => { conn with writes := conn.writes.tail }).conn d).input
        = (s.conn d).input := input_modify s c d fun _ => rfl
    exact hwrite
  | shutdown =>
    obtain ⟨_, rfl⟩ := step_shutdown.mp h
    rfl

theorem eq_of_stopped_readHeader {c d : ConnId} {header : Bytes}
    (h : (Event.readHeader (δ := δ) c header).stopped = some d) : c = d := by
  obtain ⟨bodyLength, _, hstopped⟩ := Option.bind_eq_some_iff.mp h
  split at hstopped
  · cases hstopped
  · exact Option.some_inj.mp hstopped

/-- A header that is waited for leads to a body, unless it is refused. -/
theorem announced_spec {c : ConnId} {header : Bytes} (h : header.length = HEADER_SIZE) :
    (announced header).length ≤ 1
      ∧ (announced header = [] ↔ (Event.readHeader (δ := δ) c header).stopped = some c) := by
  have hfits : 3 + 4 ≤ header.length := Nat.le_of_eq h.symm
  obtain ⟨bodyLength, hlength, _⟩ := readUint32_of_le hfits
  rw [stopped_readHeader hlength, announced, hlength]
  dsimp only
  split <;> simp

/-- **What a step does to the reads of one connection**: nothing, unless it was
just accepted, or one of its reads completed or failed. In that case at most one
read follows, and none exactly if the manager was made to stop the connection;
the only other way to be stopped is a failed write. -/
theorem step_reads_cases (h : step wiring s e = some s') (d : ConnId) :
    ((s'.conn d).reads = (s.conn d).reads ∧ e ≠ .accept d
        ∧ (e.stopped = some d → e = .writeError d))
      ∨ (e = .accept d ∧ d ∉ s.accepted ∧ (s'.conn d).reads = wiring.reads)
      ∨ (e ≠ .accept d ∧ ∃ op ∈ (s.conn d).reads, ∃ next,
          (s'.conn d).reads = (s.conn d).reads.erase op ++ next
          ∧ next.length ≤ 1 ∧ (next = [] ↔ e.stopped = some d)) := by
  have hreads : (s'.conn d).reads = (inputAfter wiring d e (s.conn d).input).reads :=
    congrArg Input.reads (step_input h d)
  cases e with
  | accept c =>
    by_cases hd : c = d
    · subst hd
      dsimp only [inputAfter] at hreads
      rw [if_pos rfl] at hreads
      exact Or.inr (Or.inl ⟨rfl, (step_accept.mp h).2.1, hreads⟩)
    · dsimp only [inputAfter] at hreads
      rw [if_neg hd] at hreads
      refine Or.inl ⟨hreads, fun heq => ?_, fun hc => nomatch hc⟩
      cases heq
      exact hd rfl
  | readHeader c header =>
    obtain ⟨_, ⟨hmem, hheader⟩, _⟩ := step_readHeader.mp h
    obtain ⟨hle, hnil⟩ := announced_spec (δ := δ) (c := c) hheader
    dsimp only [inputAfter] at hreads
    by_cases hd : c = d
    · subst hd
      rw [if_pos rfl] at hreads
      refine Or.inr (Or.inr ⟨(fun heq => nomatch heq), .header, hmem, ?_⟩)
      exact ⟨announced header, hreads, hle, hnil⟩
    · rw [if_neg hd] at hreads
      refine Or.inl ⟨hreads, (fun heq => nomatch heq), fun hc => ?_⟩
      exact absurd (eq_of_stopped_readHeader hc) hd
  | readBody c body w =>
    have hmem := (step_readBody.mp h).2.1
    dsimp only [inputAfter] at hreads
    by_cases hd : c = d
    · subst hd
      rw [if_pos rfl] at hreads
      refine Or.inr (Or.inr ⟨(fun heq => nomatch heq), _, hmem, ?_⟩)
      exact ⟨[.header], hreads, Nat.le_refl 1, (fun heq => nomatch heq), fun heq => nomatch heq⟩
    · rw [if_neg hd] at hreads
      exact Or.inl ⟨hreads, (fun heq => nomatch heq), fun hc => nomatch hc⟩
  | readError c op =>
    have hmem := (step_readError.mp h).2.1
    dsimp only [inputAfter] at hreads
    by_cases hd : c = d
    · subst hd
      rw [if_pos rfl] at hreads
      refine Or.inr (Or.inr ⟨(fun heq => nomatch heq), op, hmem, ?_⟩)
      refine ⟨[], ?_, Nat.zero_le 1, iff_of_true rfl rfl⟩
      rw [hreads, List.append_nil]
      rfl
    · rw [if_neg hd] at hreads
      exact Or.inl ⟨hreads, (fun heq => nomatch heq), fun hc => absurd (Option.some_inj.mp hc) hd⟩
  | writeError c =>
    refine Or.inl ⟨hreads, (fun heq => nomatch heq), fun hc => ?_⟩
    cases hc
    rfl
  | acceptError => exact Or.inl ⟨hreads, (fun heq => nomatch heq), fun hc => nomatch hc⟩
  | runPosted => exact Or.inl ⟨hreads, (fun heq => nomatch heq), fun hc => nomatch hc⟩
  | writeOk c => exact Or.inl ⟨hreads, (fun heq => nomatch heq), fun hc => nomatch hc⟩
  | shutdown => exact Or.inl ⟨hreads, (fun heq => nomatch heq), fun hc => nomatch hc⟩

theorem not_mem_connections_of_stopped {c : ConnId} (h : step wiring s e = some s')
    (hc : e.stopped = some c) : c ∉ s'.connections := by
  have hlive : s'.connections = s.connections.erase c := by
    have hregistry := step_registry h
    rw [sessionAction_eq_stop.mpr hc] at hregistry
    exact congrArg Registry.live hregistry
  rw [hlive]
  exact Finset.notMem_erase c _

end

/-! ## The read pump -/

/-- Every registered connection has exactly one read in flight. -/
def OneRead (s : ChatServer δ) : Prop :=
  ∀ c ∈ s.connections, (s.conn c).reads.length = 1

/-- As written, no read is ever started. -/
def NeverReads (s : ChatServer δ) : Prop :=
  ∀ c, (s.conn c).reads = []

theorem step_neverReads {s s' : ChatServer δ} {e : Event δ} (hs : NeverReads s)
    (h : step .asWritten s e = some s') : NeverReads s' := by
  intro d
  rcases step_reads_cases h d with ⟨heq, _⟩ | ⟨_, _, hreads⟩ | ⟨_, op, hmem, _⟩
  · rw [heq, hs d]
  · exact hreads
  · rw [hs d] at hmem
    cases hmem

/-- **As the code is wired, the pump never runs**: registered connections have
exactly one read in flight in every state of a run if and only if the run
accepts no connection. -/
theorem oneRead_iff (db : δ) (evs : List (Event δ)) :
    Always (step .asWritten) OneRead (.init db) evs
      ↔ EachStep (step .asWritten) (fun _ e _ => ∀ c, e ≠ .accept c) (.init db) evs := by
  have hinit : OneRead (ChatServer.init db) := fun c hc => absurd hc (Finset.notMem_empty c)
  rw [always_iff_eachStep]
  refine (and_iff_right hinit).trans ?_
  refine eachStep_iff (E := fun _ => True) (I := NeverReads) (J := OneRead) ?_ ?_ ?_
    (fun _ _ => trivial) (fun _ => rfl) hinit
  · exact fun _ hs h => step_neverReads hs h
  · exact fun _ _ _ _ hs' => hs'
  · intro s e s' _ hnever hs h
    constructor
    · -- The accepted connection is registered and has no read in flight.
      intro hs' c he
      subst he
      have hc : c ∈ s'.connections := by
        obtain ⟨_, _, rfl⟩ := step_accept.mp h
        exact Finset.mem_insert_self c s.connections
      have hone := hs' c hc
      rw [step_neverReads hnever h c] at hone
      cases hone
    · intro he d hd
      rcases mem_connections_of_step h hd with hd | rfl
      · have hone := hs d hd
        rw [hnever d] at hone
        cases hone
      · exact absurd rfl (he d)

/-- One client connects, and nothing reads from it. -/
theorem not_oneRead_accept :
    ¬ Always (step .asWritten) OneRead (.init ()) [.accept 1] := by
  intro h
  have hrun : (exec (step .asWritten) (.init ()) [.accept 1]).map
      (fun s => (decide (1 ∈ s.connections), (s.conn 1).reads)) = some (true, []) := by decide
  obtain ⟨s, hs, hfinal⟩ := Option.map_eq_some_iff.mp hrun
  injection hfinal with hlive hreads
  have hone := always_iff.mp h _ [] s (List.append_nil _).symm hs 1 (of_decide_eq_true hlive)
  rw [hreads] at hone
  cases hone

/-- The only element of a list of length 1. -/
theorem eq_singleton_of_mem {α : Type} {l : List α} {a : α} (hl : l.length = 1) (ha : a ∈ l) :
    l = [a] := by
  obtain ⟨b, rfl⟩ := List.length_eq_one_iff.mp hl
  rw [List.mem_singleton.mp ha]

theorem step_oneRead {s s' : ChatServer δ} {e : Event δ} (hs : OneRead s)
    (h : step .started s e = some s') : OneRead s' := by
  intro d hd
  have hstopped : e.stopped ≠ some d := fun hc => not_mem_connections_of_stopped h hc hd
  have hlive : e ≠ .accept d → d ∈ s.connections := fun hne =>
    (mem_connections_of_step h hd).resolve_right hne
  rcases step_reads_cases h d with
    ⟨heq, hne, _⟩ | ⟨_, _, hreads⟩ | ⟨hne, op, hmem, next, hreads, hle, hnil⟩
  · -- Its reads are as they were.
    rw [heq]
    exact hs d (hlive hne)
  · rw [hreads]
    rfl
  · -- The one read is done, and one follows, since the connection was not stopped.
    have hone := eq_singleton_of_mem (hs d (hlive hne)) hmem
    have hpos : 0 < next.length := List.length_pos_iff.mpr fun heq => hstopped (hnil.mp heq)
    rw [hreads, hone, List.erase_cons_head, List.nil_append]
    omega

/-- **Were connections started, the pump would run**: every registered
connection has exactly one read in flight, in every state of every run. -/
theorem oneRead_started (db : δ) (evs : List (Event δ)) :
    Always (step .started) OneRead (.init db) evs :=
  Always.of_invariant step_oneRead evs fun c hc => absurd hc (Finset.notMem_empty c)

end QQChat.Server
