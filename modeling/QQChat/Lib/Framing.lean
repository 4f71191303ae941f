/-!
# Length-prefixed framing of a stream

A stream of frames, each a header of fixed size followed by as many elements
as the header announces. `Framing` is the header size and the announced length;
nothing else of the format matters here, so both may be anything.

The greedy parse takes complete frames off the front while it can. It is given
twice: as the function `parse`, and as the relation `IsParse` that says what a
greedy parse *is* — the frames and the rest concatenate to the stream, every
frame is one, and the rest holds no complete frame. `parse_spec` and
`IsParse.unique` make the two the same, and since `IsParse` composes along
appends by definition (`IsParse.append`), parsing a stream in pieces and
keeping the rest between them is parsing it whole (`parseChunks_eq`), whatever
the pieces.

The rest is the parser's entire state, and nothing less would do:
`rest_eq_of_frames_eq` shows that two rests from which every continuation gives
the same frames are equal.
-/

namespace QQChat

/-- A frame format: the header's size, and the body length it announces. -/
structure Framing (α : Type) where
  header : Nat
  header_pos : 0 < header
  bodyLen : List α → Nat

namespace Framing

variable {α : Type} (F : Framing α)

/-- The size of the frame a list starts with, its header being there. -/
def total (b : List α) : Nat :=
  F.header + F.bodyLen (b.take F.header)

/-- The list starts with a complete frame. -/
def Complete (b : List α) : Prop :=
  F.header ≤ b.length ∧ F.total b ≤ b.length

instance (b : List α) : Decidable (F.Complete b) :=
  inferInstanceAs (Decidable (_ ∧ _))

/-- The list is exactly one frame. -/
def IsFrame (f : List α) : Prop :=
  F.header ≤ f.length ∧ f.length = F.total f

instance (f : List α) : Decidable (F.IsFrame f) :=
  inferInstanceAs (Decidable (_ ∧ _))

theorem header_le_total (b : List α) : F.header ≤ F.total b :=
  Nat.le_add_right _ _

variable {F} in
/-- Taking a frame off the front leaves less. -/
theorem length_drop_total_lt {b : List α} (h : F.Complete b) :
    (b.drop (F.total b)).length < b.length := by
  have hpos := F.header_pos
  have htotal := F.header_le_total b
  have hheader := h.1
  rw [List.length_drop]
  omega

/-- The greedy parse: the complete frames in front, and the rest. -/
def parse (b : List α) : List (List α) × List α :=
  if _h : F.Complete b then
    let p := parse (b.drop (F.total b))
    (b.take (F.total b) :: p.1, p.2)
  else ([], b)
termination_by b.length
decreasing_by exact length_drop_total_lt _h

/-- What a greedy parse of `b` is. -/
structure IsParse (b : List α) (frames : List (List α)) (rest : List α) : Prop where
  flatten_append : frames.flatten ++ rest = b
  isFrame : ∀ f ∈ frames, F.IsFrame f
  not_complete : ¬ F.Complete rest

variable {F}

/-- Once the header is in, later elements do not change the frame's size. -/
theorem total_append {b : List α} (h : F.header ≤ b.length) (c : List α) :
    F.total (b ++ c) = F.total b := by
  unfold total
  rw [List.take_append_of_le_length h]

theorem isFrame_take {b : List α} (h : F.Complete b) : F.IsFrame (b.take (F.total b)) := by
  have hle := F.header_le_total b
  have hlen : (b.take (F.total b)).length = F.total b := by
    rw [List.length_take]
    exact Nat.min_eq_left h.2
  have htotal : F.total (b.take (F.total b)) = F.total b := by
    conv => rhs; rw [← List.take_append_drop (F.total b) b]
    exact (total_append (by omega) _).symm
  exact ⟨by omega, by omega⟩

/-- A frame in front makes the list complete, and is what greed takes. -/
theorem IsFrame.complete_append {f : List α} (h : F.IsFrame f) (c : List α) :
    F.Complete (f ++ c) ∧ F.total (f ++ c) = f.length := by
  have htotal : F.total (f ++ c) = f.length := by rw [total_append h.1, ← h.2]
  refine ⟨⟨?_, ?_⟩, htotal⟩
  · rw [List.length_append]
    exact Nat.le_trans h.1 (Nat.le_add_right _ _)
  · rw [htotal, List.length_append]
    exact Nat.le_add_right _ _

theorem parse_of_complete {b : List α} (h : F.Complete b) :
    F.parse b = (b.take (F.total b) :: (F.parse (b.drop (F.total b))).1,
      (F.parse (b.drop (F.total b))).2) := by
  rw [parse, dif_pos h]

theorem parse_of_not_complete {b : List α} (h : ¬ F.Complete b) : F.parse b = ([], b) := by
  rw [parse, dif_neg h]

/-- **A greedy parse is unique**, and `parse` computes it. -/
theorem IsParse.unique {frames : List (List α)} {b rest : List α}
    (h : F.IsParse b frames rest) : F.parse b = (frames, rest) := by
  induction frames generalizing b with
  | nil =>
    have hb : rest = b := h.flatten_append
    rw [← hb]
    exact parse_of_not_complete h.not_complete
  | cons f frames ih =>
    have hf := h.isFrame f (List.mem_cons_self ..)
    have hb : f ++ (frames.flatten ++ rest) = b := by
      rw [← List.append_assoc, ← List.flatten_cons]
      exact h.flatten_append
    have htail : F.IsParse (frames.flatten ++ rest) frames rest :=
      ⟨rfl, fun g hg => h.isFrame g (List.mem_cons_of_mem _ hg), h.not_complete⟩
    obtain ⟨hcomplete, htotal⟩ := hf.complete_append (frames.flatten ++ rest)
    rw [← hb, parse_of_complete hcomplete, htotal, List.take_left, List.drop_left, ih htail]

theorem parse_spec (b : List α) : F.IsParse b (F.parse b).1 (F.parse b).2 := by
  by_cases h : F.Complete b
  · have ih := parse_spec (b.drop (F.total b))
    rw [parse_of_complete h]
    refine ⟨?_, ?_, ih.not_complete⟩
    · rw [List.flatten_cons, List.append_assoc, ih.flatten_append, List.take_append_drop]
    · intro f hf
      rcases List.mem_cons.mp hf with rfl | hf'
      · exact isFrame_take h
      · exact ih.isFrame f hf'
  · rw [parse_of_not_complete h]
    exact ⟨rfl, (fun f hf => nomatch hf), h⟩
termination_by b.length
decreasing_by exact length_drop_total_lt h

/-- Frames are no shorter than their headers, so a stream holds only so many. -/
theorem header_mul_length_le {frames : List (List α)} (h : ∀ f ∈ frames, F.IsFrame f) :
    F.header * frames.length ≤ frames.flatten.length := by
  induction frames with
  | nil => exact Nat.le_of_eq (Nat.mul_zero _)
  | cons f frames ih =>
    have hf := (h f (List.mem_cons_self ..)).1
    have hframes := ih fun g hg => h g (List.mem_cons_of_mem _ hg)
    rw [List.length_cons, Nat.mul_succ, List.flatten_cons, List.length_append]
    omega

theorem header_mul_length_parse_le (b : List α) :
    F.header * (F.parse b).1.length ≤ b.length := by
  have hspec := parse_spec (F := F) b
  have hle := header_mul_length_le hspec.isFrame
  have hlen := congrArg List.length hspec.flatten_append
  rw [List.length_append] at hlen
  omega

/-- Parses compose: what follows is parsed behind the rest. -/
theorem IsParse.append {b c rest rest' : List α} {frames frames' : List (List α)}
    (h : F.IsParse b frames rest) (h' : F.IsParse (rest ++ c) frames' rest') :
    F.IsParse (b ++ c) (frames ++ frames') rest' := by
  refine ⟨?_, ?_, h'.not_complete⟩
  · rw [List.flatten_append, List.append_assoc, h'.flatten_append, ← List.append_assoc,
      h.flatten_append]
  · intro f hf
    rcases List.mem_append.mp hf with hL | hR
    · exact h.isFrame f hL
    · exact h'.isFrame f hR

theorem parse_append (b c : List α) :
    F.parse (b ++ c) = ((F.parse b).1 ++ (F.parse ((F.parse b).2 ++ c)).1,
      (F.parse ((F.parse b).2 ++ c)).2) :=
  ((parse_spec b).append (parse_spec _)).unique

/-- The rest of a stream depends on its beginning only through the rest of it. -/
theorem rest_append (b c : List α) :
    (F.parse (b ++ c)).2 = (F.parse ((F.parse b).2 ++ c)).2 := by
  rw [parse_append]

/-- Frames in a row are parsed as what they are. -/
theorem isParse_flatten {frames : List (List α)} (h : ∀ f ∈ frames, F.IsFrame f) :
    F.IsParse frames.flatten frames [] :=
  ⟨List.append_nil _, h, fun hc => Nat.lt_irrefl 0 (Nat.lt_of_lt_of_le F.header_pos hc.1)⟩

/-- Whoever has a part of a row of frames, and has it in frames, has the first of them. -/
theorem isPrefix_of_flatten {frames frames' : List (List α)} (h : ∀ f ∈ frames, F.IsFrame f)
    (h' : ∀ f ∈ frames', F.IsFrame f) (hinitial : frames.flatten <+: frames'.flatten) :
    frames <+: frames' := by
  obtain ⟨rest, hrest⟩ := hinitial
  have hparse := (isParse_flatten h').unique
  rw [← hrest, parse_append, (isParse_flatten h).unique] at hparse
  exact ⟨_, congrArg Prod.fst hparse⟩

/-! ## Parsing in pieces -/

/-- Parse piece by piece, keeping the rest in front of the next piece. -/
def parseChunks (F : Framing α) : List α → List (List α) → List (List α) × List α
  | buffer, [] => ([], buffer)
  | buffer, chunk :: chunks =>
    let p := F.parse (buffer ++ chunk)
    let q := parseChunks F p.2 chunks
    (p.1 ++ q.1, q.2)

theorem parseChunks_append (chunks later : List (List α)) (buffer : List α) :
    F.parseChunks buffer (chunks ++ later)
      = ((F.parseChunks buffer chunks).1
          ++ (F.parseChunks (F.parseChunks buffer chunks).2 later).1,
        (F.parseChunks (F.parseChunks buffer chunks).2 later).2) := by
  induction chunks generalizing buffer with
  | nil => rfl
  | cons chunk chunks ih => simp only [List.cons_append, parseChunks, ih, List.append_assoc]

/-- **Chunk independence**: the pieces do not matter. -/
theorem parseChunks_eq (chunks : List (List α)) {buffer : List α} (h : ¬ F.Complete buffer) :
    F.parseChunks buffer chunks = F.parse (buffer ++ chunks.flatten) := by
  induction chunks generalizing buffer with
  | nil =>
    rw [List.flatten_nil, List.append_nil]
    exact (parse_of_not_complete h).symm
  | cons chunk chunks ih =>
    -- What is kept after a piece holds no complete frame, as the induction needs.
    have hrest := ih (parse_spec (buffer ++ chunk)).not_complete
    rw [List.flatten_cons, ← List.append_assoc, parse_append]
    simp only [parseChunks, hrest]

/-! ## Up to the first frame that is refused -/

/-- The complete frames in front of the first that the reader does not accept. -/
def parseWhile (F : Framing α) (accepts : List α → Bool) (b : List α) : List (List α) :=
  (F.parse b).1.takeWhile accepts

/-- Accepted frames in front are taken, and nothing behind them if what is there is
incomplete or refused. -/
theorem parseWhile_append {accepts : List α → Bool} {frames : List (List α)} {tail : List α}
    (hframes : ∀ f ∈ frames, F.IsFrame f ∧ accepts f = true)
    (htail : F.Complete tail → accepts (tail.take (F.total tail)) = false) :
    F.parseWhile accepts (frames.flatten ++ tail) = frames := by
  unfold parseWhile
  induction frames with
  | nil =>
    rw [List.flatten_nil, List.nil_append]
    by_cases h : F.Complete tail
    · rw [parse_of_complete h, List.takeWhile_cons_of_neg (by rw [htail h]; decide)]
    · rw [parse_of_not_complete h]
      rfl
  | cons f frames ih =>
    obtain ⟨hf, haccepted⟩ := hframes f (List.mem_cons_self ..)
    obtain ⟨hcomplete, htotal⟩ := hf.complete_append (frames.flatten ++ tail)
    rw [List.flatten_cons, List.append_assoc, parse_of_complete hcomplete, htotal,
      List.take_left, List.drop_left, List.takeWhile_cons_of_pos haccepted,
      ih fun g hg => hframes g (List.mem_cons_of_mem _ hg)]

/-- What comes later adds frames behind those that are taken. -/
theorem parseWhile_prefix (accepts : List α → Bool) (b c : List α) :
    F.parseWhile accepts b <+: F.parseWhile accepts (b ++ c) := by
  unfold parseWhile
  rw [parse_append, List.takeWhile_append]
  split
  next hall =>
    rw [(List.takeWhile_prefix accepts).eq_of_length hall]
    exact List.prefix_append ..
  next => exact List.prefix_refl _

/-! ## The rest is the whole state -/

/-- Any list without a complete frame is the beginning of exactly one frame. -/
theorem exists_isFrame_append [Inhabited α] {b : List α} (h : ¬ F.Complete b) :
    ∃ c, F.IsFrame (b ++ c) := by
  -- Pad to a full header, then with the body that header announces.
  have hheader : F.header ≤ (b ++ List.replicate (F.header - b.length) default).length := by
    rw [List.length_append, List.length_replicate]
    omega
  generalize hp : b ++ List.replicate (F.header - b.length) default = padded at hheader
  -- A padded header is all there is, and an unpadded one has no complete body.
  have hshort : padded.length ≤ F.total padded := by
    rcases Nat.lt_or_ge b.length F.header with hlt | hge
    · have hlen : padded.length = F.header := by
        rw [← hp, List.length_append, List.length_replicate]
        omega
      rw [hlen]
      exact Nat.le_add_right _ _
    · have hpb : padded = b := by
        rw [← hp, Nat.sub_eq_zero_of_le hge, List.replicate_zero, List.append_nil]
      rw [hpb]
      exact Nat.le_of_not_le fun hle => h ⟨hge, hle⟩
  refine ⟨List.replicate (F.header - b.length) default
    ++ List.replicate (F.total padded - padded.length) default, ?_⟩
  rw [← List.append_assoc, hp]
  refine ⟨?_, ?_⟩
  · rw [List.length_append]
    omega
  · rw [total_append hheader, List.length_append, List.length_replicate]
    omega

/-- If every continuation that frames `b` frames `b'` alike, then `b` is a
prefix of `b'`, completed by nothing more than what completes `b`. -/
theorem exists_append_of_frames_eq [Inhabited α] {b b' : List α} (h : ¬ F.Complete b)
    (heq : ∀ c, (F.parse (b ++ c)).1 = (F.parse (b' ++ c)).1) :
    ∃ c rest, b ++ c ++ rest = b' ++ c := by
  obtain ⟨c, hframe⟩ := exists_isFrame_append h
  have hrest : ¬ F.Complete ([] : List α) := fun hc =>
    Nat.lt_irrefl 0 (Nat.lt_of_lt_of_le F.header_pos hc.1)
  have hparse : F.IsParse (b ++ c) [b ++ c] [] := by
    refine ⟨?_, ?_, hrest⟩
    · rw [List.flatten_cons, List.flatten_nil, List.append_nil, List.append_nil]
    · intro f hf
      rw [List.mem_singleton.mp hf]
      exact hframe
  have hone : (F.parse (b' ++ c)).1 = [b ++ c] := by rw [← heq, hparse.unique]
  have hspec := (parse_spec (F := F) (b' ++ c)).flatten_append
  rw [hone, List.flatten_cons, List.flatten_nil, List.append_nil] at hspec
  exact ⟨c, _, hspec⟩

/-- **The rest is the whole state**: two rests that no continuation tells apart
are equal. -/
theorem rest_eq_of_frames_eq [Inhabited α] {b b' : List α} (h : ¬ F.Complete b)
    (h' : ¬ F.Complete b') (heq : ∀ c, (F.parse (b ++ c)).1 = (F.parse (b' ++ c)).1) :
    b = b' := by
  -- Each is a prefix of the other, so nothing follows either.
  obtain ⟨c, rest, hc⟩ := exists_append_of_frames_eq h heq
  obtain ⟨d, rest', hd⟩ := exists_append_of_frames_eq h' fun c => (heq c).symm
  have hlen := congrArg List.length hc
  have hlen' := congrArg List.length hd
  simp only [List.length_append] at hlen hlen'
  have hnil : rest = [] := List.eq_nil_of_length_eq_zero (by omega)
  rw [hnil, List.append_nil] at hc
  exact List.append_cancel_right hc

end Framing

end QQChat
