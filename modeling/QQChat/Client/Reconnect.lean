import QQChat.Client.ReadLoop
import QQChat.Lib.Trace

/-!
# A client over several connections

`ChatClient::connect`, `disconnect` and `run` (`chat_client.cpp`) around the
read loop. A `ChatClient` outlives its connections, and so does its
`read_buffer_`: `connect` gives it a new socket and a new worker thread but
leaves the buffer as the last connection left it.

Mirroring notes:
- `disconnect` joins the worker thread, and `connect` begins with
  `disconnect`, so at most one worker runs and the events of a client form one
  sequence. `reading` says that the worker is inside `read_loop`.
- What the operating system answers to `run` is part of the event
  (`ConnectOutcome`).
- `packets` is a record of what `handle_packet` was called with since the last
  `connect`; no code reads it.

Whether a connection can be told from the ones before it comes down to the
bytes they left unconsumed (`isolated_iff`).
-/

namespace QQChat.Client

open Trace

/-- How `run` fares: the address does not parse, there is no socket, the
socket does not connect, or it does. -/
inductive ConnectOutcome where
  | badAddress
  | noSocket
  | refused (fd : Int32)
  | connected (fd : Int32)
deriving DecidableEq, Repr

structure ChatClient where
  host : Bytes := []
  port : Int32 := 0
  socketFd : Int32 := -1
  running : Bool := false
  connected : Bool := false
  reading : Bool := false
  readBuffer : Bytes := []
  packets : List Bytes := []
deriving DecidableEq, Repr

inductive Event where
  | connect (host : Bytes) (port : Int32) (outcome : ConnectOutcome)
  | recv (bytes : Bytes)
  | serverClose
  | disconnect
deriving DecidableEq, Repr

/-! ## The operations -/

def ChatClient.disconnect (c : ChatClient) : ChatClient :=
  { c with running := false, socketFd := -1, reading := false, connected := false }

/-- The worker thread up to `read_loop`. A failed attempt leaves `running_` set. -/
def ChatClient.run (c : ChatClient) : ConnectOutcome → ChatClient
  | .badAddress => c
  | .noSocket => { c with socketFd := -1 }
  | .refused _ => { c with socketFd := -1 }
  | .connected fd => { c with socketFd := fd, connected := true, reading := true }

def ChatClient.connect (c : ChatClient) (host : Bytes) (port : Int32) (outcome : ConnectOutcome) :
    ChatClient :=
  let c := c.disconnect
  { c with host, port, running := true, packets := [] }.run outcome

/-- One iteration of `read_loop` whose `recv` returned `bytes`. -/
def ChatClient.recv (c : ChatClient) (bytes : Bytes) : Access ChatClient := do
  let (packets, readBuffer) ← drain (c.readBuffer ++ bytes)
  return { c with readBuffer, packets := c.packets ++ packets }

/-- `recv` returned 0 or failed: the loop is left, the socket stays open. -/
def ChatClient.serverClose (c : ChatClient) : ChatClient :=
  { c with reading := false, connected := false }

def step (c : ChatClient) : Event → Option ChatClient
  | .connect host port outcome => some (c.connect host port outcome)
  | .recv bytes =>
    if c.reading ∧ 0 < bytes.length ∧ bytes.length ≤ 4096 then c.recv bytes else none
  | .serverClose => if c.reading then some c.serverClose else none
  | .disconnect => some c.disconnect

/-! ## The buffer over a history -/

/-- All bytes received in a history, over all its connections. -/
def received : List Event → Bytes
  | [] => []
  | .recv bytes :: evs => bytes ++ received evs
  | _ :: evs => received evs

/-- The bytes a history leaves unconsumed: those of the last frame begun. -/
def unconsumed (evs : List Event) : Bytes :=
  (wire.parse (received evs)).2

theorem connect_readBuffer (c : ChatClient) (host : Bytes) (port : Int32)
    (outcome : ConnectOutcome) : (c.connect host port outcome).readBuffer = c.readBuffer := by
  cases outcome <;> rfl

/-- What a `recv` does. -/
theorem step_recv {c c' : ChatClient} {bytes : Bytes} :
    step c (.recv bytes) = some c' ↔
      (c.reading ∧ 0 < bytes.length ∧ bytes.length ≤ 4096)
        ∧ c' = { c with
            readBuffer := (wire.parse (c.readBuffer ++ bytes)).2
            packets := c.packets ++ (wire.parse (c.readBuffer ++ bytes)).1 } := by
  simp only [step, ChatClient.recv, drain_eq]
  split
  next h =>
    constructor
    · intro heq
      cases heq
      exact ⟨h, rfl⟩
    · intro ⟨_, hc'⟩
      rw [hc']
      rfl
  next h => exact ⟨(fun heq => nomatch heq), fun hc => absurd hc.1 h⟩

/-- Any other event leaves the buffer alone. -/
theorem step_readBuffer {c c' : ChatClient} {e : Event} (he : ∀ bytes, e ≠ .recv bytes)
    (h : step c e = some c') : c'.readBuffer = c.readBuffer := by
  cases e with
  | connect host port outcome =>
    cases h
    exact connect_readBuffer c host port outcome
  | recv bytes => exact absurd rfl (he bytes)
  | serverClose =>
    simp only [step] at h
    split at h
    next =>
      cases h
      rfl
    next => cases h
  | disconnect =>
    cases h
    rfl

/-- **The buffer is the rest of everything received**, whatever connections it
came over. -/
theorem exec_readBuffer {evs : List Event} {c c' : ChatClient}
    (hc : ¬ wire.Complete c.readBuffer) (h : exec step c evs = some c') :
    c'.readBuffer = (wire.parse (c.readBuffer ++ received evs)).2 := by
  induction evs generalizing c with
  | nil =>
    cases h
    rw [received, List.append_nil, Framing.parse_of_not_complete hc]
  | cons e evs ih =>
    obtain ⟨m, he, hm⟩ := exec_cons.mp h
    -- Only a `recv` adds to the buffer, and it leaves no complete frame there.
    by_cases hrecv : ∃ bytes, e = .recv bytes
    · obtain ⟨bytes, rfl⟩ := hrecv
      have hbuf : m.readBuffer = (wire.parse (c.readBuffer ++ bytes)).2 := by
        rw [(step_recv.mp he).2]
      have hcm : ¬ wire.Complete m.readBuffer := by
        rw [hbuf]
        exact (Framing.parse_spec _).not_complete
      rw [ih hcm hm, hbuf, received, ← Framing.rest_append, List.append_assoc]
    · have hother : ∀ bytes, e ≠ .recv bytes := fun bytes heq => hrecv ⟨bytes, heq⟩
      have hbuf := step_readBuffer hother he
      have hreceived : received (e :: evs) = received evs := by
        cases e with
        | recv bytes => exact absurd rfl (hother bytes)
        | connect _ _ _ => rfl
        | serverClose => rfl
        | disconnect => rfl
      have hcm : ¬ wire.Complete m.readBuffer := by
        rw [hbuf]
        exact hc
      rw [ih hcm hm, hbuf, hreceived]

theorem exec_init_readBuffer {evs : List Event} {c : ChatClient}
    (h : exec step {} evs = some c) : c.readBuffer = unconsumed evs :=
  exec_readBuffer not_complete_nil h

theorem not_complete_unconsumed (evs : List Event) : ¬ wire.Complete (unconsumed evs) :=
  (Framing.parse_spec _).not_complete

/-! ## One connection -/

/-- A connection that is made and then receives these pieces. -/
def newConnection (host : Bytes) (port fd : Int32) (chunks : List Bytes) : List Event :=
  .connect host port (.connected fd) :: chunks.map .recv

/-- The packets of a read loop that already runs. -/
theorem exec_recv_packets {chunks : List Bytes} {c c' : ChatClient}
    (hc : ¬ wire.Complete c.readBuffer) (h : exec step c (chunks.map .recv) = some c') :
    c'.packets = c.packets ++ (wire.parse (c.readBuffer ++ chunks.flatten)).1 := by
  induction chunks generalizing c with
  | nil =>
    cases h
    rw [List.flatten_nil, List.append_nil, Framing.parse_of_not_complete hc, List.append_nil]
  | cons chunk chunks ih =>
    obtain ⟨m, he, hm⟩ := exec_cons.mp h
    have hm' := (step_recv.mp he).2
    have hcm : ¬ wire.Complete m.readBuffer := by
      rw [hm']
      exact (Framing.parse_spec _).not_complete
    rw [ih hcm hm, hm', List.flatten_cons, ← List.append_assoc c.readBuffer,
      Framing.parse_append (c.readBuffer ++ chunk), List.append_assoc]

/-- A read loop takes whatever pieces come. -/
theorem exec_recv_isSome {chunks : List Bytes} {c : ChatClient} (hc : c.reading = true)
    (hsize : ∀ chunk ∈ chunks, 0 < chunk.length ∧ chunk.length ≤ 4096) :
    ∃ c', exec step c (chunks.map .recv) = some c' := by
  induction chunks generalizing c with
  | nil => exact ⟨c, rfl⟩
  | cons chunk chunks ih =>
    have he := step_recv.mpr ⟨⟨hc, hsize chunk (List.mem_cons_self ..)⟩, rfl⟩
    obtain ⟨c', h⟩ := ih (c := { c with
        readBuffer := (wire.parse (c.readBuffer ++ chunk)).2
        packets := c.packets ++ (wire.parse (c.readBuffer ++ chunk)).1 }) hc
      fun chunk' hmem => hsize chunk' (List.mem_cons_of_mem _ hmem)
    exact ⟨c', exec_cons.mpr ⟨_, he, h⟩⟩

/-- **What a new connection dispatches**: the frames of what it receives,
behind what the history left. -/
theorem newConnection_packets {evs : List Event} {host : Bytes} {port fd : Int32}
    {chunks : List Bytes} {c : ChatClient}
    (h : exec step {} (evs ++ newConnection host port fd chunks) = some c) :
    c.packets = (wire.parse (unconsumed evs ++ chunks.flatten)).1 := by
  obtain ⟨m, hm, hnew⟩ := exec_append.mp h
  obtain ⟨m', hconnect, hrecv⟩ := exec_cons.mp hnew
  cases hconnect
  have hbuf : (m.connect host port (.connected fd)).readBuffer = unconsumed evs := by
    rw [connect_readBuffer, exec_init_readBuffer hm]
  have hcm : ¬ wire.Complete (m.connect host port (.connected fd)).readBuffer := by
    rw [hbuf]
    exact not_complete_unconsumed evs
  rw [exec_recv_packets hcm hrecv, hbuf]
  rfl

/-- After any history a new connection can be made and receive anything. -/
theorem newConnection_isSome {evs : List Event} {c : ChatClient}
    (h : exec step {} evs = some c) (host : Bytes) (port fd : Int32) {chunks : List Bytes}
    (hsize : ∀ chunk ∈ chunks, 0 < chunk.length ∧ chunk.length ≤ 4096) :
    ∃ c', exec step {} (evs ++ newConnection host port fd chunks) = some c' := by
  obtain ⟨c', hc'⟩ := exec_recv_isSome (c := c.connect host port (.connected fd)) rfl hsize
  exact ⟨c', exec_append.mpr ⟨c, h, exec_cons.mpr ⟨_, rfl, hc'⟩⟩⟩

/-! ## Two histories -/

/-- Two histories cannot be told apart by a connection made after them: the
same bytes received on it, in whatever pieces, dispatch the same packets. -/
def Isolated (evs₁ evs₂ : List Event) : Prop :=
  ∀ (host₁ host₂ : Bytes) (port₁ port₂ fd₁ fd₂ : Int32) (chunks₁ chunks₂ : List Bytes)
    (c₁ c₂ : ChatClient), chunks₁.flatten = chunks₂.flatten →
      exec step {} (evs₁ ++ newConnection host₁ port₁ fd₁ chunks₁) = some c₁ →
      exec step {} (evs₂ ++ newConnection host₂ port₂ fd₂ chunks₂) = some c₂ →
        c₁.packets = c₂.packets

/-- Any bytes can be received one at a time. -/
theorem flatten_singletons (bytes : Bytes) : (bytes.map fun b => [b]).flatten = bytes := by
  induction bytes with
  | nil => rfl
  | cons b bytes ih =>
    rw [List.map_cons, List.flatten_cons, ih]
    rfl

/-- **Isolation is exactly agreement on the unconsumed bytes**: no connection
tells two histories apart if and only if they leave the same bytes behind. -/
theorem isolated_iff {evs₁ evs₂ : List Event} {c₁ c₂ : ChatClient}
    (h₁ : exec step {} evs₁ = some c₁) (h₂ : exec step {} evs₂ = some c₂) :
    Isolated evs₁ evs₂ ↔ unconsumed evs₁ = unconsumed evs₂ := by
  constructor
  · intro hiso
    -- Whatever bytes are sent on, one at a time, the two dispatch the same frames.
    refine Framing.rest_eq_of_frames_eq (not_complete_unconsumed evs₁)
      (not_complete_unconsumed evs₂) fun bytes => ?_
    have hsize : ∀ chunk ∈ bytes.map fun b => [b], 0 < chunk.length ∧ chunk.length ≤ 4096 := by
      intro chunk hmem
      obtain ⟨b, _, rfl⟩ := List.mem_map.mp hmem
      exact ⟨Nat.one_pos, show 1 ≤ 4096 by decide⟩
    obtain ⟨t₁, ht₁⟩ := newConnection_isSome h₁ [] 0 0 hsize
    obtain ⟨t₂, ht₂⟩ := newConnection_isSome h₂ [] 0 0 hsize
    have hpackets := hiso _ _ _ _ _ _ _ _ t₁ t₂ rfl ht₁ ht₂
    rw [newConnection_packets ht₁, newConnection_packets ht₂, flatten_singletons] at hpackets
    exact hpackets
  · intro hrest host₁ host₂ port₁ port₂ fd₁ fd₂ chunks₁ chunks₂ t₁ t₂ hflat ht₁ ht₂
    rw [newConnection_packets ht₁, newConnection_packets ht₂, hrest, hflat]

/-- One byte, and the server is gone: a history that leaves that byte behind. -/
def cutInHeader : List Event :=
  [.connect [] 8888 (.connected 3), .recv [1], .serverClose]

theorem exec_cutInHeader : ∃ c, exec step {} cutInHeader = some c :=
  ⟨_, exec_cons.mpr ⟨_, rfl, exec_cons.mpr ⟨_, step_recv.mpr ⟨by decide, rfl⟩,
    exec_cons.mpr ⟨_, rfl, rfl⟩⟩⟩⟩

theorem unconsumed_nil : unconsumed [] = [] :=
  congrArg Prod.snd (Framing.parse_of_not_complete not_complete_nil)

theorem unconsumed_cutInHeader : unconsumed cutInHeader = [1] :=
  congrArg Prod.snd (Framing.parse_of_not_complete (show ¬ wire.Complete [1] by decide))

theorem isolated_iff_cutInHeader :
    ∃ c₂, exec step {} cutInHeader = some c₂
      ∧ (Isolated [] cutInHeader ↔ unconsumed [] = unconsumed cutInHeader) := by
  obtain ⟨c₂, h₂⟩ := exec_cutInHeader
  have h₁ : exec step {} [] = some {} := rfl
  exact ⟨c₂, h₂, isolated_iff h₁ h₂⟩

/-- A login response without its error code (`01 0002 00000000`) reaches a new
client, and is swallowed by one whose last connection was cut after a byte:
there the two streams read as the header `01 01 00 02000000`. -/
theorem not_isolated_cutInHeader : ¬ Isolated [] cutInHeader := by
  intro hiso
  have hsize : ∀ chunk ∈ [[1, 0, 2, 0, 0, 0, (0 : UInt8)]],
      0 < chunk.length ∧ chunk.length ≤ 4096 := by decide
  obtain ⟨c, hc⟩ := exec_cutInHeader
  have hnew : exec step {} [] = some {} := rfl
  obtain ⟨t₁, ht₁⟩ := newConnection_isSome hnew [] 8888 3 hsize
  obtain ⟨t₂, ht₂⟩ := newConnection_isSome hc [] 8888 4 hsize
  have hpackets := hiso _ _ _ _ _ _ _ _ t₁ t₂ rfl ht₁ ht₂
  have hone : wire.IsParse [1, 0, 2, 0, 0, 0, 0] [[1, 0, 2, 0, 0, 0, 0]] [] :=
    ⟨rfl, by decide, not_complete_nil⟩
  have hnone : ¬ wire.Complete [1, 1, 0, 2, 0, 0, 0, 0] := by decide
  rw [newConnection_packets ht₁, newConnection_packets ht₂, unconsumed_nil,
    unconsumed_cutInHeader] at hpackets
  simp only [List.flatten_cons, List.flatten_nil, List.append_nil, List.nil_append,
    List.cons_append, hone.unique, Framing.parse_of_not_complete hnone] at hpackets
  cases hpackets

end QQChat.Client
