import Mathlib.Order.WellFounded

/-!
# Runs of a partial step function

A system is a function `step : σ → ε → Option σ`, where `none` means that the
event cannot happen in the state. A run is a list of events; it ends early
where an event cannot happen, so every list is a run and no theorem below has
to assume that one goes through.

Two ways to speak about a run: `Always P`, of the states it goes through, and
`EachStep R`, of the steps it takes. `eachStep_iff` is how a property of runs
is shown to be *equivalent* to a condition on their steps: it is enough that
the two agree on a single step, in states where an invariant holds — one part
of it kept by every step, the other kept as long as the property does.

Steps that use up something well-founded (`Uses`) do not go on forever
(`Uses.not_forever`), and wherever they are taken from, they can be taken until
no more of them is possible (`Uses.exists_settled`).
-/

namespace QQChat

namespace Trace

variable {σ ε : Type} (step : σ → ε → Option σ)

/-- The state after a run that goes through. -/
def exec : σ → List ε → Option σ
  | s, [] => some s
  | s, e :: es => do
    let s' ← step s e
    exec s' es

/-- `P` holds in every state the run goes through, both ends included. -/
def Always (P : σ → Prop) : σ → List ε → Prop
  | s, [] => P s
  | s, e :: es => P s ∧ ∀ s', step s e = some s' → Always P s' es

/-- What the steps of the run put out, in order. -/
def outputs {β : Type} (out : σ → ε → List β) : σ → List ε → List β
  | _, [] => []
  | s, e :: es =>
    match step s e with
    | none => []
    | some s' => out s e ++ outputs out s' es

/-- `R` holds of every step the run takes. -/
def EachStep (R : σ → ε → σ → Prop) : σ → List ε → Prop
  | _, [] => True
  | s, e :: es => ∀ s', step s e = some s' → R s e s' ∧ EachStep R s' es

variable {step}

/-- Whether each step of a given run has a decidable property, the run itself shows. -/
instance instDecidableEachStep {R : σ → ε → σ → Prop} [∀ s e s', Decidable (R s e s')] :
    ∀ (es : List ε) (s : σ), Decidable (EachStep step R s es)
  | [], _ => .isTrue trivial
  | e :: es, s =>
    match hs : step s e with
    | none => .isTrue fun s' h => by
      rw [hs] at h
      cases h
    | some s' =>
      have : Decidable (EachStep step R s' es) := instDecidableEachStep es s'
      decidable_of_iff (R s e s' ∧ EachStep step R s' es)
        ⟨fun h s'' h' => by
          cases hs.symm.trans h'
          exact h, fun h => h s' hs⟩

theorem exec_cons {s t : σ} {e : ε} {es : List ε} :
    exec step s (e :: es) = some t ↔ ∃ s', step s e = some s' ∧ exec step s' es = some t := by
  show (step s e).bind _ = some t ↔ _
  rw [Option.bind_eq_some_iff]

/-- Runs compose. -/
theorem exec_append {es es' : List ε} {s t : σ} :
    exec step s (es ++ es') = some t ↔
      ∃ m, exec step s es = some m ∧ exec step m es' = some t := by
  induction es generalizing s with
  | nil =>
    constructor
    · intro h
      exact ⟨s, rfl, h⟩
    · intro ⟨m, hm, h⟩
      cases hm
      exact h
  | cons e es ih =>
    rw [List.cons_append, exec_cons]
    constructor
    · intro ⟨s', hs, h⟩
      obtain ⟨m, hm, ht⟩ := ih.mp h
      exact ⟨m, exec_cons.mpr ⟨s', hs, hm⟩, ht⟩
    · intro ⟨m, hm, ht⟩
      obtain ⟨s', hs, hm'⟩ := exec_cons.mp hm
      exact ⟨s', hs, ih.mpr ⟨m, hm', ht⟩⟩

/-- Induction along a run: what holds at the start and is kept by each step
holds at the end, where it may speak of the events so far. -/
theorem exec_induction {P : List ε → σ → Prop} {s : σ} (h0 : P [] s)
    (hstep : ∀ {es e m t}, P es m → step m e = some t → P (es ++ [e]) t)
    {es : List ε} {t : σ} (h : exec step s es = some t) : P es t := by
  -- The induction is on the events to come; `done` are those behind.
  suffices haux : ∀ {es done : List ε} {m : σ}, P done m → exec step m es = some t →
      P (done ++ es) t from haux h0 h
  intro es
  induction es with
  | nil =>
    intro done m hm h
    cases h
    rw [List.append_nil]
    exact hm
  | cons e es ih =>
    intro done m hm h
    obtain ⟨m', he, ht⟩ := exec_cons.mp h
    have hnext := ih (hstep hm he) ht
    rw [List.append_assoc, List.singleton_append] at hnext
    exact hnext

/-! ## Invariants -/

/-- What the steps by events that satisfy `E` keep, a run of such events keeps. -/
theorem exec_invariant {E : ε → Prop} {I : σ → Prop}
    (hI : ∀ {s e s'}, E e → I s → step s e = some s' → I s') {es : List ε} {s t : σ}
    (hE : ∀ e ∈ es, E e) (hs : I s) (h : exec step s es = some t) : I t := by
  induction es generalizing s with
  | nil =>
    cases h
    exact hs
  | cons e es ih =>
    obtain ⟨s', he, ht⟩ := exec_cons.mp h
    have hfirst := hE e (List.mem_cons_self ..)
    exact ih (fun e' hmem => hE e' (List.mem_cons_of_mem _ hmem)) (hI hfirst hs he) ht

/-- What every step preserves, every run goes through. -/
theorem Always.of_invariant {I : σ → Prop}
    (hI : ∀ {s e s'}, I s → step s e = some s' → I s') :
    ∀ (es : List ε) {s : σ}, I s → Always step I s es
  | [], _, hs => hs
  | _ :: es, _, hs => ⟨hs, fun _ he => Always.of_invariant hI es (hI hs he)⟩

theorem Always.head {P : σ → Prop} {es : List ε} {s : σ} (h : Always step P s es) : P s := by
  cases es with
  | nil => exact h
  | cons e es => exact h.1

/-- What every step preserves, every run of events that satisfy `E` can count on. -/
theorem EachStep.of_invariant {E : ε → Prop} {I : σ → Prop} {R : σ → ε → σ → Prop}
    (hI : ∀ {s e s'}, E e → I s → step s e = some s' → I s')
    (hR : ∀ {s e s'}, E e → I s → step s e = some s' → R s e s') :
    ∀ {es : List ε} {s : σ}, (∀ e ∈ es, E e) → I s → EachStep step R s es
  | [], _, _, _ => trivial
  | e :: es, s, hE, hs => fun s' he => by
    have hfirst := hE e (List.mem_cons_self ..)
    have hrest : ∀ e' ∈ es, E e' := fun e' hmem => hE e' (List.mem_cons_of_mem _ hmem)
    exact ⟨hR hfirst hs he, EachStep.of_invariant hI hR hrest (hI hfirst hs he)⟩

/-- `Always` speaks of exactly the states that the beginnings of the run lead to. -/
theorem always_iff {P : σ → Prop} {es : List ε} {s : σ} :
    Always step P s es ↔ ∀ es₁ es₂ t, es = es₁ ++ es₂ → exec step s es₁ = some t → P t := by
  induction es generalizing s with
  | nil =>
    constructor
    · intro h es₁ es₂ t hes ht
      obtain ⟨rfl, rfl⟩ := List.append_eq_nil_iff.mp hes.symm
      cases ht
      exact h
    · intro h
      exact h [] [] s rfl rfl
  | cons e es ih =>
    constructor
    · intro ⟨hs, hnext⟩ es₁ es₂ t hes ht
      -- The beginning is empty, or starts with the same step.
      cases es₁ with
      | nil =>
        cases ht
        exact hs
      | cons e' es₁ =>
        injection hes with he hes
        subst he
        obtain ⟨s', hstep, ht'⟩ := exec_cons.mp ht
        exact ih.mp (hnext s' hstep) es₁ es₂ t hes ht'
    · intro h
      refine ⟨h [] (e :: es) s rfl rfl, fun s' hs' => ih.mpr ?_⟩
      intro es₁ es₂ t hes ht
      exact h (e :: es₁) es₂ t (by rw [hes]; rfl) (exec_cons.mpr ⟨s', hs', ht⟩)

theorem always_iff_eachStep {P : σ → Prop} {es : List ε} {s : σ} :
    Always step P s es ↔ P s ∧ EachStep step (fun _ _ s' => P s') s es := by
  induction es generalizing s with
  | nil => exact ⟨fun h => ⟨h, trivial⟩, fun h => h.1⟩
  | cons e es ih =>
    constructor
    · intro ⟨hs, hnext⟩
      exact ⟨hs, fun s' he => ih.mp (hnext s' he)⟩
    · intro ⟨hs, hnext⟩
      exact ⟨hs, fun s' he => ih.mpr (hnext s' he)⟩

/-- The step after a run that goes through is one of its steps. -/
theorem EachStep.of_exec {R : σ → ε → σ → Prop} {es es' : List ε} {e : ε} {s m s' : σ}
    (h : EachStep step R s (es ++ e :: es')) (hm : exec step s es = some m)
    (he : step m e = some s') : R m e s' := by
  induction es generalizing s with
  | nil =>
    cases hm
    exact (h s' he).1
  | cons e₁ es ih =>
    obtain ⟨s₁, hs₁, hm'⟩ := exec_cons.mp hm
    exact ih (h s₁ hs₁).2 hm'

theorem eachStep_and {R R' : σ → ε → σ → Prop} {es : List ε} {s : σ} :
    EachStep step (fun s e s' => R s e s' ∧ R' s e s') s es
      ↔ EachStep step R s es ∧ EachStep step R' s es := by
  induction es generalizing s with
  | nil => exact ⟨fun _ => ⟨trivial, trivial⟩, fun _ => trivial⟩
  | cons e es ih =>
    constructor
    · intro h
      refine ⟨fun s' he => ?_, fun s' he => ?_⟩
      · obtain ⟨⟨hr, _⟩, hrest⟩ := h s' he
        exact ⟨hr, (ih.mp hrest).1⟩
      · obtain ⟨⟨_, hr'⟩, hrest⟩ := h s' he
        exact ⟨hr', (ih.mp hrest).2⟩
    · intro ⟨h, h'⟩ s' he
      obtain ⟨hr, hrest⟩ := h s' he
      obtain ⟨hr', hrest'⟩ := h' s' he
      exact ⟨⟨hr, hr'⟩, ih.mpr ⟨hrest, hrest'⟩⟩

/-- **A property of runs as a condition on steps**, for runs of events that
satisfy `E`: `I` is kept by every step, `J` by the steps that have the property
`R`, and where both hold, a step has `R` exactly when it meets `G`. -/
theorem eachStep_iff {E : ε → Prop} {I J : σ → Prop} {R G : σ → ε → σ → Prop}
    (hI : ∀ {s e s'}, E e → I s → step s e = some s' → I s')
    (hJ : ∀ {s e s'}, E e → I s → J s → step s e = some s' → R s e s' → J s')
    (hRG : ∀ {s e s'}, E e → I s → J s → step s e = some s' → (R s e s' ↔ G s e s'))
    {es : List ε} {s : σ} (hE : ∀ e ∈ es, E e) (hs : I s) (hj : J s) :
    EachStep step R s es ↔ EachStep step G s es := by
  induction es generalizing s with
  | nil => exact Iff.rfl
  | cons e es ih =>
    have he := hE e (List.mem_cons_self ..)
    have hes : ∀ e' ∈ es, E e' := fun e' hmem => hE e' (List.mem_cons_of_mem _ hmem)
    -- Either side gives `R` of the first step, which carries `J` to the others.
    constructor
    · intro h s' hstep
      obtain ⟨hr, hrest⟩ := h s' hstep
      have hnext := ih hes (hI he hs hstep) (hJ he hs hj hstep hr)
      exact ⟨(hRG he hs hj hstep).mp hr, hnext.mp hrest⟩
    · intro h s' hstep
      obtain ⟨hg, hrest⟩ := h s' hstep
      have hr := (hRG he hs hj hstep).mpr hg
      have hnext := ih hes (hI he hs hstep) (hJ he hs hj hstep hr)
      exact ⟨hr, hnext.mpr hrest⟩

/-- Steps that meet `G` keep an invariant, so its consequence holds all along. -/
theorem Always.of_eachStep {J P : σ → Prop} {G : σ → ε → σ → Prop} (hP : ∀ {s}, J s → P s)
    (hJ : ∀ {s e s'}, J s → step s e = some s' → G s e s' → J s') {es : List ε} {s : σ}
    (hs : J s) (h : EachStep step G s es) : Always step P s es := by
  induction es generalizing s with
  | nil => exact hP hs
  | cons e es ih =>
    refine ⟨hP hs, fun s' he => ?_⟩
    obtain ⟨hg, hrest⟩ := h s' he
    exact ih (hJ hs he hg) hrest

/-- A step that does not meet `G` dooms the run: `P` fails before it comes to an end. -/
theorem EachStep.of_always {J D F P : σ → Prop} {G : σ → ε → σ → Prop}
    (hJ : ∀ {s e s'}, J s → step s e = some s' → G s e s' → J s')
    (hbad : ∀ {s e s'}, J s → step s e = some s' → ¬ G s e s' → D s')
    (hD : ∀ {s e s'}, D s → step s e = some s' → P s' → D s') (hend : ∀ {s}, D s → ¬ F s)
    {es : List ε} {s t : σ} (hs : J s) (h : exec step s es = some t) (ht : F t)
    (hP : Always step P s es) : EachStep step G s es := by
  have hdoom : ∀ {es : List ε} {s : σ}, D s → exec step s es = some t →
      ¬ Always step P s es := by
    intro es
    induction es with
    | nil =>
      intro s hs h _
      cases h
      exact hend hs ht
    | cons e es ih =>
      intro s hs h hP
      obtain ⟨s', he, h'⟩ := exec_cons.mp h
      have hP' := hP.2 s' he
      exact ih (hD hs he hP'.head) h' hP'
  induction es generalizing s with
  | nil => trivial
  | cons e es ih =>
    obtain ⟨s', he, h'⟩ := exec_cons.mp h
    intro s'' he'
    cases he.symm.trans he'
    have hP' := hP.2 s' he
    have hg : G s e s' := Classical.byContradiction fun hbroken =>
      hdoom (hbad hs he hbroken) h' hP'
    exact ⟨hg, ih (hJ hs he hg) h' hP'⟩

/-- The last step's output comes last. -/
theorem outputs_snoc {β : Type} {out : σ → ε → List β} {es : List ε} {e : ε} {s m t : σ}
    (hm : exec step s es = some m) (he : step m e = some t) :
    outputs step out s (es ++ [e]) = outputs step out s es ++ out m e := by
  induction es generalizing s with
  | nil =>
    cases hm
    simp only [List.nil_append, outputs, he, List.append_nil]
  | cons e₁ es ih =>
    obtain ⟨s₁, hs₁, hm'⟩ := exec_cons.mp hm
    simp only [List.cons_append, outputs, hs₁, ih hm', List.append_assoc]

/-- What a run puts out, one of its steps does. -/
theorem exists_of_mem_outputs {β : Type} {out : σ → ε → List β} {es : List ε} {s : σ} {b : β}
    (h : b ∈ outputs step out s es) : ∃ es₁ e es₂ m m', es = es₁ ++ e :: es₂
      ∧ exec step s es₁ = some m ∧ step m e = some m' ∧ b ∈ out m e := by
  induction es generalizing s with
  | nil => cases h
  | cons e es ih =>
    unfold outputs at h
    cases hs : step s e with
    | none =>
      rw [hs] at h
      cases h
    | some s' =>
      rw [hs] at h
      rcases List.mem_append.mp h with hb | hb
      · exact ⟨[], e, es, s, s', rfl, rfl, hs, hb⟩
      · obtain ⟨es₁, e', es₂, m, m', rfl, hm, hm', hb⟩ := ih hb
        exact ⟨e :: es₁, e', es₂, m, m', rfl, exec_cons.mpr ⟨s', hs, hm⟩, hm', hb⟩

section

variable {α : Type} [Preorder α]

/-- Each step leaves less to do. -/
structure Uses (step : σ → ε → Option σ) (E : ε → Prop) (I : σ → Prop) (left : σ → α) : Prop where
  keeps : ∀ {s e s'}, E e → I s → step s e = some s' → I s'
  less : ∀ {s e s'}, E e → I s → step s e = some s' → left s' < left s

/-- None of the steps is possible. -/
def Settled (step : σ → ε → Option σ) (E : ε → Prop) (s : σ) : Prop :=
  ∀ e, E e → step s e = none

variable [WellFoundedLT α] {E : ε → Prop} {I : σ → Prop} {left : σ → α}

theorem Uses.not_forever (h : Uses step E I left) {s : σ} (hs : I s) :
    ¬ ∃ run : Nat → σ, run 0 = s ∧ ∀ n, ∃ e, E e ∧ step (run n) e = some (run (n + 1)) := by
  induction hleft : left s using WellFoundedLT.induction generalizing s with
  | ind a ih =>
    subst hleft
    rintro ⟨run, rfl, hrun⟩
    obtain ⟨e, he, hstep⟩ := hrun 0
    -- The rest of the run has less left.
    refine ih _ (h.less he hs hstep) (h.keeps he hs hstep) rfl ⟨fun n => run (n + 1), rfl, ?_⟩
    exact fun n => hrun (n + 1)

theorem Uses.exists_settled (h : Uses step E I left) {s : σ} (hs : I s) :
    ∃ es t, (∀ e ∈ es, E e) ∧ exec step s es = some t ∧ Settled step E t := by
  induction hleft : left s using WellFoundedLT.induction generalizing s with
  | ind a ih =>
    subst hleft
    by_cases hsettled : Settled step E s
    · exact ⟨[], s, fun _ he => absurd he List.not_mem_nil, rfl, hsettled⟩
    · obtain ⟨e, hne⟩ := not_forall.mp hsettled
      obtain ⟨he, hne⟩ := Classical.not_imp.mp hne
      obtain ⟨s', hstep⟩ := Option.ne_none_iff_exists'.mp hne
      obtain ⟨es, t, hes, hexec, ht⟩ := ih _ (h.less he hs hstep) (h.keeps he hs hstep) rfl
      refine ⟨e :: es, t, ?_, exec_cons.mpr ⟨s', hstep, hexec⟩, ht⟩
      exact List.forall_mem_cons.mpr ⟨he, hes⟩

end

/-! ## The order of events -/

/-- `a` happens, and `b` later. -/
def Before {α : Type} (a b : α) (l : List α) : Prop :=
  [a, b].Sublist l

theorem not_before_nil {α : Type} {a b : α} : ¬ Before a b [] :=
  fun h => absurd h.length_le (Nat.not_succ_le_zero 1)

theorem before_append {α : Type} {a b : α} {l m : List α} :
    Before a b (l ++ m) ↔ Before a b l ∨ (a ∈ l ∧ b ∈ m) ∨ Before a b m := by
  unfold Before
  rw [List.sublist_append_iff]
  constructor
  · intro ⟨l₁, l₂, hsplit, hl, hm⟩
    -- `l₁` is how much of `[a, b]` is found in `l`.
    match l₁, hsplit with
    | [], hsplit =>
      rw [hsplit]
      exact Or.inr (Or.inr hm)
    | [x], hsplit =>
      cases hsplit
      exact Or.inr (Or.inl ⟨List.singleton_sublist.mp hl, List.singleton_sublist.mp hm⟩)
    | [x, y], hsplit =>
      cases hsplit
      exact Or.inl hl
    | x :: y :: z :: zs, hsplit => cases hsplit
  · intro h
    rcases h with hl | ⟨ha, hb⟩ | hm
    · exact ⟨[a, b], [], rfl, hl, List.nil_sublist _⟩
    · exact ⟨[a], [b], rfl, List.singleton_sublist.mpr ha, List.singleton_sublist.mpr hb⟩
    · exact ⟨[], [a, b], rfl, List.nil_sublist _, hm⟩

/-- Appending one event. -/
theorem before_singleton {α : Type} {a b x : α} {l : List α} :
    Before a b (l ++ [x]) ↔ Before a b l ∨ (a ∈ l ∧ b = x) := by
  rw [before_append, List.mem_singleton]
  refine or_congr_right (or_iff_left fun h => ?_)
  have hlen := h.length_le
  simp at hlen

end Trace

end QQChat
