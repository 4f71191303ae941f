import QQChat.Client.ReadLoop
import QQChat.Codec.Bijection
import QQChat.Server.Stream

/-!
# Any stream, read by the server

`Server.Stream` follows a client that sends requests. A peer may send anything, and
all connections share one loop. What `do_read_header` and `do_read_body` hand to
`handle_message` on a connection is still a function of the bytes read on that
connection: the frames of their greedy parse in front of the first whose body is
empty or of a mebibyte or more (`handled_eq_dispatches`). Neither what happens on
other connections, nor what is sent, nor when anything is stopped shows in it.

The reader takes the fields out of its two buffers by hand; the packets it makes are
those that `ProtocolCodec::decode` would make of the frames, which it never calls.

`Parsed` is the invariant of one connection: whole frames, and then what is left of
the bytes read, by the read in flight (`Phase`).
-/

namespace QQChat.Server

open BigEndian Trace ChatServer

variable {δ : Type}

/-! ## The frames that are dispatched -/

/-- A body is asked for: it is not empty and shorter than a mebibyte. -/
def acceptedFrame (frame : Bytes) : Bool :=
  HEADER_SIZE < frame.length && frame.length < HEADER_SIZE + 1024 * 1024

/-- What a connection makes of a stream. -/
def dispatches (stream : Bytes) : List Bytes :=
  wire.parseWhile acceptedFrame stream

/-- A whole header that announces a body of this length. -/
structure IsHeader (header : Bytes) (bodyLength : UInt32) : Prop where
  length : header.length = HEADER_SIZE
  announces : readUint32 header 3 = some bodyLength

theorem IsHeader.total {header : Bytes} {bodyLength : UInt32} (h : IsHeader header bodyLength)
    (body : Bytes) : wire.total (header ++ body) = HEADER_SIZE + bodyLength.toNat := by
  have hle : HEADER_SIZE ≤ header.length := Nat.le_of_eq h.length.symm
  obtain ⟨length, hread, htotal⟩ := Client.readUint32_header hle
  rw [h.announces] at hread
  cases hread
  exact (Framing.total_append hle body).trans htotal.symm

theorem exists_isHeader {header : Bytes} (h : header.length = HEADER_SIZE) :
    ∃ bodyLength, IsHeader header bodyLength := by
  have hfits : 3 + 4 ≤ header.length := Nat.le_of_eq h.symm
  obtain ⟨bodyLength, hread, _⟩ := readUint32_of_le hfits
  exact ⟨bodyLength, h, hread⟩

theorem acceptable_iff_toNat {bodyLength : UInt32} :
    Acceptable bodyLength ↔ 0 < bodyLength.toNat ∧ bodyLength.toNat < 1024 * 1024 := by
  unfold Acceptable
  rw [UInt32.lt_iff_toNat_lt, UInt32.lt_iff_toNat_lt]
  exact Iff.rfl

theorem announced_eq {header : Bytes} {bodyLength : UInt32} (h : IsHeader header bodyLength) :
    announced header = if Acceptable bodyLength then [.body bodyLength.toNat] else [] := by
  unfold announced
  rw [h.announces]

section

variable {header body : Bytes} {bodyLength : UInt32}

/-- A header and as many bytes as it announces are a frame. -/
theorem IsHeader.isFrame (h : IsHeader header bodyLength) (hbody : body.length = bodyLength.toNat) :
    wire.IsFrame (header ++ body) := by
  refine ⟨?_, ?_⟩
  · rw [List.length_append, h.length]
    exact Nat.le_add_right _ _
  · rw [List.length_append, h.length, h.total, hbody]

theorem IsHeader.acceptedFrame_iff (h : IsHeader header bodyLength)
    (hbody : body.length = bodyLength.toNat) :
    acceptedFrame (header ++ body) = true ↔ Acceptable bodyLength := by
  rw [acceptable_iff_toNat]
  unfold acceptedFrame
  rw [List.length_append, h.length, hbody, Bool.and_eq_true, decide_eq_true_iff,
    decide_eq_true_iff]
  omega

/-- Behind a header that is refused, nothing is accepted. -/
theorem IsHeader.refused (h : IsHeader header bodyLength) (hrefused : ¬ Acceptable bodyLength)
    (rest : Bytes) (hcomplete : wire.Complete (header ++ rest)) :
    acceptedFrame ((header ++ rest).take (wire.total (header ++ rest))) = false := by
  have hle := hcomplete.2
  rw [h.total] at hle ⊢
  rw [List.length_append, h.length] at hle
  rw [← h.length, List.take_length_add_append]
  refine Bool.eq_false_iff.mpr fun haccepted => hrefused ?_
  refine (h.acceptedFrame_iff ?_).mp haccepted
  rw [List.length_take]
  omega

/-- A header whose body is still to come is no frame. -/
theorem IsHeader.not_complete (h : IsHeader header bodyLength) {rest : Bytes}
    (hrest : rest.length < bodyLength.toNat) : ¬ wire.Complete (header ++ rest) := by
  intro hcomplete
  have hle := hcomplete.2
  rw [h.total, List.length_append, h.length] at hle
  omega

/-- What the reader makes of its two buffers is what `decode` makes of the frame. -/
theorem IsHeader.decode (h : IsHeader header bodyLength) (hbody : body.length = bodyLength.toNat)
    {conn : Connection} (hheader : conn.headerBuffer = header) (hbuffer : conn.bodyBuffer = body)
    {packet : Packet} (hpacket : conn.packet = some packet) :
    decode (header ++ body) = some (some packet) := by
  obtain ⟨version, hversion, hrest⟩ := Option.bind_eq_some_iff.mp hpacket
  obtain ⟨command, hcommand, heq⟩ := Option.bind_eq_some_iff.mp hrest
  cases heq
  rw [hheader] at hversion hcommand
  rw [hbuffer]
  have hsize : HEADER_SIZE = 7 := rfl
  have hlength := h.length
  have hread : ∀ {i : Nat}, i < 7 → (header ++ body)[i]? = header[i]? := fun hi =>
    List.getElem?_append_left (by omega)
  have hcommand' : readUint16 (header ++ body) 1 = some command := by
    unfold readUint16 at hcommand ⊢
    rw [hread (by decide), hread (by decide)]
    exact hcommand
  have hlength' : readUint32 (header ++ body) 3 = some bodyLength := by
    have hannounces := h.announces
    unfold readUint32 at hannounces ⊢
    rw [hread (by decide), hread (by decide), hread (by decide), hread (by decide)]
    exact hannounces
  have hheaderLe : ¬ (header ++ body).length < HEADER_SIZE := by
    rw [List.length_append]
    omega
  rw [decode_of_header hheaderLe ((hread (by decide)).trans hversion) hcommand' hlength',
    if_neg (by rw [List.length_append, h.length, hbody]; exact fun hne => hne rfl), ← h.length,
    List.drop_left]

end

/-! ## One connection along a run -/

/-- Where a connection is in its stream, by the read in flight: `tail` is what has been
read behind the last whole frame. -/
inductive Phase (c : ConnId) (evs : List (Event δ)) (input : Input) (tail : Bytes) : Prop
  | between (hreads : input.reads = [.header]) (htail : tail = [])
  | within {bodyLength : UInt32} (hheader : IsHeader tail bodyLength)
      (hacceptable : Acceptable bodyLength)
      (hinput : input = ⟨tail, [.body bodyLength.toNat]⟩)
  | refused {bodyLength : UInt32} (hreads : input.reads = []) (hheader : IsHeader tail bodyLength)
      (hrefused : ¬ Acceptable bodyLength)
  | failed (hreads : input.reads = []) (hfailed : ∃ op, .readError c op ∈ evs)
      (htail : ¬ wire.Complete tail)

/-- The bytes that a connection has read, as frames. -/
structure Parsed (c : ConnId) (evs : List (Event δ)) (s : ChatServer δ) (frames : List Bytes)
    (tail : Bytes) : Prop where
  bytes : frames.flatten ++ tail = evs.flatMap (Event.bytesRead c)
  accepted : ∀ f ∈ frames, wire.IsFrame f ∧ acceptedFrame f = true
  handled : (handledOn c s.calls).map (fun packet => some (some packet)) = frames.map decode
  phase : (.accept c ∉ evs ∧ frames = [] ∧ tail = [] ∧ (s.conn c).reads = [])
    ∨ (c ∈ s.accepted ∧ Phase c evs (s.conn c).input tail)

/-- The events that concern the reading of a connection. -/
def Event.Reads (c : ConnId) (e : Event δ) : Prop :=
  e = .accept c ∨ (∃ header, e = .readHeader c header) ∨ (∃ body w, e = .readBody c body w)
    ∨ ∃ op, e = .readError c op

theorem Phase.not_refused {c : ConnId} {evs : List (Event δ)} {input : Input} {tail : Bytes}
    (h : Phase c evs input tail) (hcomplete : wire.Complete tail) :
    acceptedFrame (tail.take (wire.total tail)) = false := by
  cases h with
  | between _ htail =>
    rw [htail] at hcomplete
    exact absurd hcomplete Client.not_complete_nil
  | within hheader hacceptable _ =>
    have hpos := (acceptable_iff_toNat.mp hacceptable).1
    rw [← List.append_nil tail] at hcomplete
    exact absurd hcomplete (hheader.not_complete hpos)
  | refused _ hheader hrefused =>
    rw [← List.append_nil tail] at hcomplete ⊢
    exact hheader.refused hrefused [] hcomplete
  | failed _ _ htail => exact absurd hcomplete htail

theorem Phase.mono {c : ConnId} {evs : List (Event δ)} {input : Input} {tail : Bytes}
    (h : Phase c evs input tail) (e : Event δ) : Phase c (evs ++ [e]) input tail := by
  cases h with
  | between hreads htail => exact .between hreads htail
  | within hheader hacceptable hinput => exact .within hheader hacceptable hinput
  | refused hreads hheader hrefused => exact .refused hreads hheader hrefused
  | failed hreads hfailed htail =>
    obtain ⟨op, hop⟩ := hfailed
    exact .failed hreads ⟨op, List.mem_append_left _ hop⟩ htail

section

variable {s s' : ChatServer δ} {c : ConnId} {evs : List (Event δ)} {e : Event δ}
  {frames : List Bytes} {tail : Bytes}

/-- An event that concerns something else. -/
theorem step_elsewhere (h : step .started s e = some s') (he : ¬ e.Reads c) :
    (s'.conn c).input = (s.conn c).input ∧ e.bytesRead c = []
      ∧ handledOn c (loopCalls s e) = [] := by
  have hinput := step_input h c
  cases e with
  | accept d =>
    have hne : d ≠ c := fun heq => he (Or.inl (heq ▸ rfl))
    exact ⟨hinput.trans (if_neg hne), rfl, rfl⟩
  | readHeader d header =>
    have hne : d ≠ c := fun heq => he (Or.inr (Or.inl ⟨header, heq ▸ rfl⟩))
    refine ⟨hinput.trans (if_neg hne), if_neg hne, ?_⟩
    dsimp only [loopCalls]
    split <;> rfl
  | readBody d body w =>
    have hne : d ≠ c := fun heq => he (Or.inr (Or.inr (Or.inl ⟨body, w, heq ▸ rfl⟩)))
    refine ⟨hinput.trans (if_neg hne), if_neg hne, ?_⟩
    dsimp only [loopCalls]
    split
    · exact List.filterMap_cons_none (if_neg hne)
    · rfl
  | readError d op =>
    have hne : d ≠ c := fun heq => he (Or.inr (Or.inr (Or.inr ⟨op, heq ▸ rfl⟩)))
    exact ⟨hinput.trans (if_neg hne), rfl, rfl⟩
  | acceptError => exact ⟨hinput, rfl, rfl⟩
  | runPosted => exact ⟨hinput, rfl, rfl⟩
  | writeOk d => exact ⟨hinput, rfl, rfl⟩
  | writeError d => exact ⟨hinput, rfl, rfl⟩
  | shutdown => exact ⟨hinput, rfl, rfl⟩

theorem handledOn_step (h : step .started s e = some s') :
    handledOn c s'.calls = handledOn c s.calls ++ handledOn c (loopCalls s e) := by
  obtain ⟨sends, hcalls⟩ := step_calls h
  rw [hcalls, handledOn_append, handledOn_append, handledOn_sends, List.append_nil]

theorem bytesRead_snoc (c : ConnId) (evs : List (Event δ)) (e : Event δ) :
    (evs ++ [e]).flatMap (Event.bytesRead c)
      = evs.flatMap (Event.bytesRead c) ++ e.bytesRead c := by
  rw [List.flatMap_append, List.flatMap_singleton]

/-- A step that hands nothing over and keeps the whole frames. -/
theorem Parsed.keep {tail' : Bytes} (hs : Parsed c evs s frames tail)
    (h : step .started s e = some s') (hbytes : tail ++ e.bytesRead c = tail')
    (hhandled : handledOn c (loopCalls s e) = [])
    (hphase : c ∈ s'.accepted ∧ Phase c (evs ++ [e]) (s'.conn c).input tail') :
    Parsed c (evs ++ [e]) s' frames tail' where
  bytes := by rw [bytesRead_snoc, ← hs.bytes, List.append_assoc, hbytes]
  accepted := hs.accepted
  handled := by rw [handledOn_step h, hhandled, List.append_nil, hs.handled]
  phase := Or.inr hphase

/-- A connection with a read in flight is somewhere in its stream. -/
theorem Parsed.phase_of_reads (hs : Parsed c evs s frames tail) (hreads : (s.conn c).reads ≠ []) :
    c ∈ s.accepted ∧ Phase c evs (s.conn c).input tail :=
  hs.phase.resolve_left fun h => hreads h.2.2.2

theorem Parsed.accept (hs : Parsed c evs s frames tail)
    (h : step .started s (.accept c) = some s') : Parsed c (evs ++ [.accept c]) s' frames tail := by
  obtain ⟨_, _, htail, _⟩ := hs.phase.resolve_right fun hp => (step_accept.mp h).2.1 hp.1
  refine hs.keep h (List.append_nil _) rfl ⟨mem_accepted_of_accept h, .between ?_ htail⟩
  rw [step_input h c]
  exact congrArg Input.reads (if_pos rfl)

theorem Parsed.elsewhere (hs : Parsed c evs s frames tail) (h : step .started s e = some s')
    (he : ¬ e.Reads c) : Parsed c (evs ++ [e]) s' frames tail := by
  obtain ⟨hinput, hbytes, hhandled⟩ := step_elsewhere h he
  rcases hs.phase with ⟨hfresh, hframes, htail, hreads⟩ | ⟨hc, hphase⟩
  · refine ⟨?_, hs.accepted, ?_, Or.inl ⟨?_, hframes, htail, ?_⟩⟩
    · rw [bytesRead_snoc, hbytes, List.append_nil, hs.bytes]
    · rw [handledOn_step h, hhandled, List.append_nil, hs.handled]
    · rw [List.mem_append, List.mem_singleton, not_or]
      exact ⟨hfresh, fun heq => he (Or.inl heq.symm)⟩
    · exact (congrArg Input.reads hinput).trans hreads
  · refine hs.keep h ?_ hhandled ⟨accepted_subset h hc, ?_⟩
    · rw [hbytes, List.append_nil]
    · rw [hinput]
      exact hphase.mono e

/-- A header completes: it is asked for, and its body is next unless it is refused. -/
theorem Parsed.readHeader {header : Bytes} (hs : Parsed c evs s frames tail)
    (h : step .started s (.readHeader c header) = some s') :
    Parsed c (evs ++ [.readHeader c header]) s' frames header := by
  obtain ⟨_, ⟨hmem, hlength⟩, _⟩ := step_readHeader.mp h
  obtain ⟨hc, hphase⟩ := hs.phase_of_reads (List.ne_nil_of_mem hmem)
  obtain ⟨hreads, htail⟩ : (s.conn c).reads = [.header] ∧ tail = [] := by
    cases hphase with
    | between hreads htail => exact ⟨hreads, htail⟩
    | within _ _ hinput =>
      rw [show (s.conn c).reads = _ from congrArg Input.reads hinput] at hmem
      cases List.mem_singleton.mp hmem
    | refused hreads _ _ => exact absurd hreads (List.ne_nil_of_mem hmem)
    | failed hreads _ _ => exact absurd hreads (List.ne_nil_of_mem hmem)
  obtain ⟨bodyLength, hheader⟩ := exists_isHeader hlength
  have hinput : (s'.conn c).input = ⟨header, announced header⟩ := by
    rw [step_input h c]
    dsimp only [inputAfter]
    rw [if_pos rfl]
    show Input.mk header ((s.conn c).reads.erase .header ++ announced header) = _
    rw [hreads]
    rfl
  refine hs.keep h ?_ ?_ ⟨accepted_subset h hc, ?_⟩
  · rw [htail, Event.bytesRead, if_pos rfl, List.nil_append]
  · dsimp only [loopCalls]
    split <;> rfl
  · rw [hinput, announced_eq hheader]
    split
    next hacceptable => exact .within hheader hacceptable rfl
    next hrefused => exact .refused rfl hheader hrefused

/-- A body completes its frame, whose packet is handed over. -/
theorem Parsed.readBody {body : Bytes} {w : World δ} (hs : Parsed c evs s frames tail)
    (h : step .started s (.readBody c body w) = some s') :
    Parsed c (evs ++ [.readBody c body w]) s' (frames ++ [tail ++ body]) [] := by
  obtain ⟨_, hmem, packet, _, hpacket, _⟩ := step_readBody.mp h
  obtain ⟨hc, hphase⟩ := hs.phase_of_reads (List.ne_nil_of_mem hmem)
  cases hphase with
  | between hreads _ =>
    rw [show (s.conn c).reads = _ from hreads] at hmem
    cases List.mem_singleton.mp hmem
  | refused hreads _ _ => exact absurd hreads (List.ne_nil_of_mem hmem)
  | failed hreads _ _ => exact absurd hreads (List.ne_nil_of_mem hmem)
  | @within bodyLength hheader hacceptable hinput =>
    have hreads : (s.conn c).reads = [.body bodyLength.toNat] := congrArg Input.reads hinput
    rw [hreads] at hmem
    injection List.mem_singleton.mp hmem with hlength
    have hdecode : decode (tail ++ body) = some (some packet) := by
      refine hheader.decode hlength ?_ ?_ hpacket
      · rw [bodyRead, modify_conn_self]
        exact congrArg Input.headerBuffer hinput
      · rw [bodyRead, modify_conn_self]
    refine ⟨?_, fun f hf => ?_, ?_, Or.inr ⟨accepted_subset h hc, .between ?_ rfl⟩⟩
    · rw [bytesRead_snoc, ← hs.bytes, Event.bytesRead, if_pos rfl, List.flatten_append,
        List.flatten_singleton, List.append_nil, List.append_assoc]
    · rcases List.mem_append.mp hf with hf | hf
      · exact hs.accepted f hf
      · rw [List.mem_singleton.mp hf]
        exact ⟨hheader.isFrame hlength, (hheader.acceptedFrame_iff hlength).mpr hacceptable⟩
    · have hcall : handledOn c (loopCalls s (.readBody c body w)) = [packet] := by
        dsimp only [loopCalls]
        rw [hpacket]
        exact List.filterMap_cons_some (if_pos rfl)
      rw [handledOn_step h, hcall, List.map_append, hs.handled, List.map_append]
      exact congrArg _ (congrArg (fun x => [x]) hdecode.symm)
    · rw [step_input h c]
      dsimp only [inputAfter]
      rw [if_pos rfl]
      show (s.conn c).reads.erase (.body body.length) ++ [.header] = _
      rw [hreads, hlength, List.erase_cons_head]
      rfl

/-- A read fails, and no other is started. -/
theorem Parsed.readError {op : ReadOp} (hs : Parsed c evs s frames tail)
    (h : step .started s (.readError c op) = some s') :
    Parsed c (evs ++ [.readError c op]) s' frames tail := by
  obtain ⟨_, hmem, _⟩ := step_readError.mp h
  obtain ⟨hc, hphase⟩ := hs.phase_of_reads (List.ne_nil_of_mem hmem)
  have hreads : (s'.conn c).reads = (s.conn c).reads.erase op := by
    show (s'.conn c).input.reads = _
    rw [step_input h c]
    exact congrArg Input.reads (if_pos rfl)
  have hfailed : ∃ op', .readError c op' ∈ evs ++ [.readError c op] :=
    ⟨op, List.mem_append_right _ (List.mem_singleton_self _)⟩
  refine hs.keep h (List.append_nil _) rfl ⟨accepted_subset h hc, ?_⟩
  -- The read that failed was the only one.
  cases hphase with
  | between hheader htail =>
    refine .failed ?_ hfailed ?_
    · rw [show (s.conn c).reads = _ from hheader] at hmem hreads
      rw [List.mem_singleton.mp hmem, List.erase_cons_head] at hreads
      exact hreads
    · rw [htail]
      exact Client.not_complete_nil
  | within hheader hacceptable hinput =>
    refine .failed ?_ hfailed ?_
    · rw [show (s.conn c).reads = _ from congrArg Input.reads hinput] at hmem hreads
      rw [List.mem_singleton.mp hmem, List.erase_cons_head] at hreads
      exact hreads
    · rw [← List.append_nil tail]
      exact hheader.not_complete (acceptable_iff_toNat.mp hacceptable).1
  | refused hnone _ _ => exact absurd hnone (List.ne_nil_of_mem hmem)
  | failed hnone _ _ => exact absurd hnone (List.ne_nil_of_mem hmem)

theorem Parsed.snoc (hs : Parsed c evs s frames tail) (h : step .started s e = some s') :
    ∃ frames' tail', Parsed c (evs ++ [e]) s' frames' tail' := by
  by_cases he : e.Reads c
  · rcases he with rfl | ⟨header, rfl⟩ | ⟨body, w, rfl⟩ | ⟨op, rfl⟩
    · exact ⟨_, _, hs.accept h⟩
    · exact ⟨_, _, hs.readHeader h⟩
    · exact ⟨_, _, hs.readBody h⟩
    · exact ⟨_, _, hs.readError h⟩
  · exact ⟨_, _, hs.elsewhere h he⟩

theorem parsed_of_exec {db : δ} {t : ChatServer δ}
    (h : exec (step .started) (.init db) evs = some t) (c : ConnId) :
    ∃ frames tail, Parsed c evs t frames tail := by
  refine exec_induction (P := fun evs s => ∃ frames tail, Parsed c evs s frames tail) ?_ ?_ h
  · refine ⟨[], [], rfl, fun f hf => absurd hf List.not_mem_nil, rfl, Or.inl ?_⟩
    exact ⟨List.not_mem_nil, rfl, rfl, rfl⟩
  · intro es e m s' ⟨frames, tail, hm⟩ he
    exact hm.snoc he

/-- What is read later adds nothing while the read in flight is not filled. -/
theorem Phase.starved {input : Input} {rest : Bytes} (h : Phase c evs input tail)
    (hreads : ∀ op, .readError c op ∉ evs) (hstarved : ∀ op ∈ input.reads, rest.length < op.size)
    (hcomplete : wire.Complete (tail ++ rest)) :
    acceptedFrame ((tail ++ rest).take (wire.total (tail ++ rest))) = false := by
  cases h with
  | between hheader htail =>
    have hlt := hstarved .header (hheader ▸ List.mem_singleton_self _)
    rw [htail, List.nil_append] at hcomplete
    exact absurd hcomplete.1 (Nat.not_le.mpr hlt)
  | @within bodyLength hheader _ hinput =>
    have hlt := hstarved (.body bodyLength.toNat) (hinput ▸ List.mem_singleton_self _)
    exact absurd hcomplete (hheader.not_complete hlt)
  | refused _ hheader hrefused => exact hheader.refused hrefused rest hcomplete
  | failed _ hfailed _ =>
    obtain ⟨op, hop⟩ := hfailed
    exact absurd hop (hreads op)

end

theorem Parsed.dispatches_eq {s : ChatServer δ} {c : ConnId} {evs : List (Event δ)}
    {frames : List Bytes} {tail : Bytes} (hs : Parsed c evs s frames tail) :
    dispatches (evs.flatMap (Event.bytesRead c)) = frames := by
  rw [← hs.bytes]
  refine Framing.parseWhile_append hs.accepted fun hcomplete => ?_
  rcases hs.phase with ⟨_, _, htail, _⟩ | ⟨_, hphase⟩
  · rw [htail] at hcomplete
    exact absurd hcomplete Client.not_complete_nil
  · exact hphase.not_refused hcomplete

section

variable {db : δ} {evs : List (Event δ)} {t : ChatServer δ}

/-- What is handed over is what `decode` makes of the frames read. -/
theorem handledOn_of_exec (h : exec (step .started) (.init db) evs = some t) (c : ConnId) :
    (handledOn c t.calls).map (fun packet => some (some packet))
      = (dispatches (evs.flatMap (Event.bytesRead c))).map decode := by
  obtain ⟨frames, tail, hparsed⟩ := parsed_of_exec h c
  rw [hparsed.dispatches_eq, hparsed.handled]

/-- With too little left to fill the read in flight, all of it has been handed over. -/
theorem dispatches_of_starved (h : exec (step .started) (.init db) evs = some t) {c : ConnId}
    {rest : Bytes} (haccept : .accept c ∈ evs) (hreads : ∀ op, .readError c op ∉ evs)
    (hstarved : ∀ op ∈ (t.conn c).reads, rest.length < op.size) :
    dispatches (evs.flatMap (Event.bytesRead c))
      = dispatches (evs.flatMap (Event.bytesRead c) ++ rest) := by
  obtain ⟨frames, tail, hparsed⟩ := parsed_of_exec h c
  rw [hparsed.dispatches_eq, ← hparsed.bytes, List.append_assoc]
  obtain ⟨_, hphase⟩ := hparsed.phase.resolve_left fun hfresh => hfresh.1 haccept
  exact (Framing.parseWhile_append hparsed.accepted fun hcomplete =>
    hphase.starved hreads hstarved hcomplete).symm

end

/-- **The reader is a greedy parse, whoever sends and whatever else happens.** In every
run the packets handed over on a connection are those of the frames in front of the
first that is refused, in the bytes read on it; so they are the first of those in all
that the peer has sent, and all of them once no read in flight can be filled, unless a
read failed. -/
theorem handled_eq_dispatches {db : δ} {evs : List (Event δ)} {t : ChatServer δ}
    (h : exec (step .started) (.init db) evs = some t) (c : ConnId) :
    (handledOn c t.calls).map (fun packet => some (some packet))
        = (dispatches (evs.flatMap (Event.bytesRead c))).map decode
      ∧ ∀ rest, dispatches (evs.flatMap (Event.bytesRead c))
            <+: dispatches (evs.flatMap (Event.bytesRead c) ++ rest)
        ∧ (.accept c ∈ evs → (∀ op, .readError c op ∉ evs) →
          (∀ op ∈ (t.conn c).reads, rest.length < op.size) →
          dispatches (evs.flatMap (Event.bytesRead c))
            = dispatches (evs.flatMap (Event.bytesRead c) ++ rest)) :=
  ⟨handledOn_of_exec h c, fun _ => ⟨Framing.parseWhile_prefix .., dispatches_of_starved h⟩⟩

/-- A version check by somebody else's client, then a header without a body, and more. -/
def strangers : List (Event Unit) :=
  [.accept 1, .readHeader 1 [9, 0, 16, 0, 0, 0, 4], .readBody 1 [0, 0, 0, 1] twoAccounts,
    .readHeader 1 [1, 0, 6, 0, 0, 0, 0]]

/-- The stream stops at the empty frame. -/
theorem handled_eq_dispatches_strangers : ∃ t, exec (step .started) (.init ()) strangers = some t
    ∧ (handledOn 1 t.calls).map (fun packet => some (some packet))
      = [decode [9, 0, 16, 0, 0, 0, 4, 0, 0, 0, 1]]
    ∧ dispatches (strangers.flatMap (Event.bytesRead 1))
      = dispatches (strangers.flatMap (Event.bytesRead 1) ++ [1, 0, 1, 0, 0, 0, 1, 0]) := by
  have hrun : (exec (step .started) (.init ()) strangers).map (fun t =>
      ((handledOn 1 t.calls).map (fun packet => some (some packet)), (t.conn 1).reads))
      = some ([decode [9, 0, 16, 0, 0, 0, 4, 0, 0, 0, 1]], []) := by decide
  obtain ⟨t, ht, hfinal⟩ := Option.map_eq_some_iff.mp hrun
  injection hfinal with hhandled hnone
  refine ⟨t, ht, hhandled, ?_⟩
  refine ((handled_eq_dispatches ht 1).2 _).2 (List.mem_cons_self ..) (fun op hop => ?_) ?_
  · simp [strangers] at hop
  · intro op hop
    rw [hnone] at hop
    cases hop

end QQChat.Server
