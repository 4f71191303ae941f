/-!
# A queue with one writer

Values wait in a buffer until they have been written. Whoever adds a value to an
empty buffer starts a write of it; whoever completes a write drops the front and
starts a write of the next. No flag says that a write is in flight: that the
buffer is not empty stands for it.

* `Healthy` — what is being written is the front of the buffer, and nothing if
  there is none. Adding and completing keep this.
* `Broken` — the buffer has values and none is being written. That is how a
  failed write leaves the queue, since its value stays at the front, and nothing
  is ever written from there (`broken_apply`).

Either way values are written in the order they were added, each once
(`written_append_buffer`). Written to a stream, they come out as one prefix of what
was added, even if the last write fails in the middle of a value (`streamed_apply`).
-/

namespace QQChat

structure WriteQueue (α : Type) where
  buffer : List α := []
  writing : List α := []

namespace WriteQueue

inductive Action (α : Type) where
  | enqueue (a : α)
  | complete
  | fail
  | idle

variable {α : Type}

def apply (q : WriteQueue α) : Action α → WriteQueue α
  | .enqueue a =>
    { buffer := q.buffer ++ [a]
      writing := if q.buffer.isEmpty then q.writing ++ [a] else q.writing }
  | .complete =>
    { buffer := q.buffer.tail, writing := q.writing.tail ++ q.buffer.tail.head?.toList }
  | .fail => { q with writing := q.writing.tail }
  | .idle => q

/-- A write completes or fails while it is in flight. -/
def Enabled (q : WriteQueue α) : Action α → Prop
  | .complete => q.writing ≠ []
  | .fail => q.writing ≠ []
  | _ => True

/-- What an action adds. -/
def Action.enqueued : Action α → List α
  | .enqueue a => [a]
  | _ => []

/-- What has been written once an action has happened. -/
def written (q : WriteQueue α) : Action α → List α
  | .complete => q.writing.head?.toList
  | _ => []

def Healthy (q : WriteQueue α) : Prop :=
  q.writing = q.buffer.head?.toList

def Broken (q : WriteQueue α) : Prop :=
  q.writing = [] ∧ q.buffer ≠ []

theorem healthy_empty : Healthy ({} : WriteQueue α) :=
  rfl

/-- A healthy queue is empty, or writes its front. -/
theorem Healthy.cases {q : WriteQueue α} (hq : q.Healthy) :
    (q.writing = [] ∧ q.buffer = [])
      ∨ ∃ front rest, q.writing = [front] ∧ q.buffer = front :: rest := by
  unfold Healthy at hq
  cases hbuffer : q.buffer with
  | nil =>
    rw [hbuffer] at hq
    exact Or.inl ⟨hq, rfl⟩
  | cons front rest =>
    rw [hbuffer] at hq
    exact Or.inr ⟨front, rest, hq, rfl⟩

/-- Whether a write is in flight is whether there is anything to write. -/
theorem Healthy.writing_iff {q : WriteQueue α} (hq : q.Healthy) :
    q.writing ≠ [] ↔ q.buffer ≠ [] := by
  rcases hq.cases with ⟨hwriting, hbuffer⟩ | ⟨front, rest, hwriting, hbuffer⟩
  · rw [hwriting, hbuffer]
  · rw [hwriting, hbuffer]
    exact iff_of_true (List.cons_ne_nil _ _) (List.cons_ne_nil _ _)

theorem healthy_apply {q : WriteQueue α} {a : Action α} (hq : q.Healthy) (ha : a ≠ .fail) :
    (q.apply a).Healthy := by
  unfold Healthy
  cases a with
  | enqueue a =>
    rcases hq.cases with ⟨hwriting, hbuffer⟩ | ⟨front, rest, hwriting, hbuffer⟩
    · simp [apply, hwriting, hbuffer]
    · simp [apply, hwriting, hbuffer]
  | complete =>
    rcases hq.cases with ⟨hwriting, hbuffer⟩ | ⟨front, rest, hwriting, hbuffer⟩
    · simp [apply, hwriting, hbuffer]
    · simp [apply, hwriting, hbuffer]
  | fail => exact absurd rfl ha
  | idle => exact hq

theorem broken_of_fail {q : WriteQueue α} (hq : q.Healthy) (h : q.writing ≠ []) :
    (q.apply .fail).Broken := by
  rcases hq.cases with ⟨hwriting, _⟩ | ⟨front, rest, hwriting, hbuffer⟩
  · exact absurd hwriting h
  · simp [Broken, apply, hwriting, hbuffer]

/-- A broken queue stays broken. -/
theorem broken_apply {q : WriteQueue α} {a : Action α} (hq : q.Broken) (ha : q.Enabled a) :
    (q.apply a).Broken := by
  obtain ⟨hwriting, hbuffer⟩ := hq
  cases a with
  | enqueue a => simp [Broken, apply, hwriting, hbuffer]
  | complete => exact absurd hwriting ha
  | fail => exact absurd hwriting ha
  | idle => exact ⟨hwriting, hbuffer⟩

/-- **Nothing is lost, doubled or moved**: what is written comes off the front,
what is added goes to the back. -/
theorem written_append_buffer {q : WriteQueue α} {a : Action α} (hq : q.Healthy ∨ q.Broken)
    (ha : q.Enabled a) : q.written a ++ (q.apply a).buffer = q.buffer ++ a.enqueued := by
  cases a with
  | enqueue a => rfl
  | complete =>
    -- Only a healthy queue completes a write, and then it is that of the front.
    rcases hq with hq | hq
    · rcases hq.cases with ⟨hwriting, _⟩ | ⟨front, rest, hwriting, hbuffer⟩
      · exact absurd hwriting ha
      · simp [written, apply, Action.enqueued, hwriting, hbuffer]
    · exact absurd hq.1 ha
  | fail => exact (List.append_nil _).symm
  | idle => exact (List.append_nil _).symm

/-! ## Onto a stream -/

section

variable {β : Type}

/-- What an action puts on the stream that the values are written to. Of a write that
fails, `n` elements have gone out. -/
def emitted (q : WriteQueue (List β)) (n : Nat) : Action (List β) → List β
  | .complete => q.writing.headD []
  | .fail => (q.writing.headD []).take n
  | _ => []

/-- Of the values added, which are `all` in a row, `out` is on the stream: what the
buffer no longer holds, and a beginning of its front if the write of that has failed. -/
def Streamed (q : WriteQueue (List β)) (out all : List β) : Prop :=
  ∃ done cut, out = done ++ cut ∧ done ++ q.buffer.flatten = all
    ∧ cut <+: q.buffer.headD [] ∧ (q.Healthy → cut = [])

theorem streamed_empty : Streamed ({} : WriteQueue (List β)) [] [] :=
  ⟨[], [], rfl, rfl, List.prefix_refl _, fun _ => rfl⟩

theorem Streamed.isPrefix {q : WriteQueue (List β)} {out all : List β}
    (h : q.Streamed out all) : out <+: all := by
  obtain ⟨done, cut, rfl, rfl, hcut, _⟩ := h
  refine (List.prefix_append_right_inj done).mpr (hcut.trans ?_)
  cases q.buffer with
  | nil => exact List.prefix_refl _
  | cons front rest => exact List.prefix_append ..

/-- Once the buffer is empty, everything is on the stream. -/
theorem Streamed.eq_of_nil {q : WriteQueue (List β)} {out all : List β}
    (h : q.Streamed out all) (hbuffer : q.buffer = []) : out = all := by
  obtain ⟨done, cut, rfl, rfl, hcut, _⟩ := h
  rw [hbuffer] at hcut ⊢
  rw [List.prefix_nil.mp hcut]
  rfl

/-- **The stream is what was added, in order**, whatever fails. -/
theorem streamed_apply {q : WriteQueue (List β)} {a : Action (List β)} {out all : List β}
    (h : q.Streamed out all) (hq : q.Healthy ∨ q.Broken) (ha : q.Enabled a) (n : Nat) :
    (q.apply a).Streamed (out ++ q.emitted n a) (all ++ a.enqueued.flatten) := by
  obtain ⟨done, cut, rfl, rfl, hcut, hhealthy⟩ := h
  have hwriting : q.writing ≠ [] →
      ∃ front rest, q.writing = [front] ∧ q.buffer = front :: rest ∧ cut = [] := by
    intro hne
    rcases hq with hq | hq
    · rcases hq.cases with ⟨hnil, _⟩ | ⟨front, rest, hfront, hbuffer⟩
      · exact absurd hnil hne
      · exact ⟨front, rest, hfront, hbuffer, hhealthy hq⟩
    · exact absurd hq.1 hne
  cases a with
  | enqueue a =>
    refine ⟨done, cut, List.append_nil _, ?_, ?_, fun hafter => ?_⟩
    · simp [apply, Action.enqueued]
    · cases hbuffer : q.buffer with
      | nil =>
        rw [hbuffer] at hcut
        rw [List.prefix_nil.mp hcut]
        exact List.nil_prefix
      | cons front rest =>
        rw [hbuffer] at hcut
        simpa [apply, hbuffer] using hcut
    · -- A value added to a broken queue does not mend it.
      rcases hq with hq | hq
      · exact hhealthy hq
      · have hbroken := broken_apply (a := .enqueue a) hq trivial
        exact absurd hbroken.1 (hafter.writing_iff.mpr hbroken.2)
  | complete =>
    obtain ⟨front, rest, hfront, hbuffer, rfl⟩ := hwriting ha
    refine ⟨done ++ front, [], ?_, ?_, List.nil_prefix, fun _ => rfl⟩
    · simp [emitted, hfront]
    · simp [apply, hbuffer, Action.enqueued]
  | fail =>
    obtain ⟨front, rest, hfront, hbuffer, rfl⟩ := hwriting ha
    refine ⟨done, front.take n, ?_, ?_, ?_, fun hafter => ?_⟩
    · simp [emitted, hfront]
    · simp [apply, Action.enqueued]
    · simpa [apply, hbuffer] using List.take_prefix n front
    · have hnil : (q.apply .fail).writing = [] := by simp [apply, hfront]
      have hne : (q.apply .fail).buffer ≠ [] := by simp [apply, hbuffer]
      exact absurd hnil (hafter.writing_iff.mpr hne)
  | idle => exact ⟨done, cut, List.append_nil _, (List.append_nil _).symm, hcut, hhealthy⟩

end

end WriteQueue

end QQChat
