import Mathlib.Data.Finset.Basic

/-!
# A session registry

What a server knows about who is there: the live connections, the user each
connection is authenticated as (`0` for none; a connection keeps the value
after its end), and for each user the connection that owns the user's session.
Connections and users are of any types.

The four actions are those of a registry whose entries are filed *by user*:
`login` overwrites the connection's user and files the new one without looking
at the old one, and `stop` erases the entry of the connection's user without
looking at which connection it names. Two properties one wants of it:

* `Sound` — an entry names a live connection authenticated as that user.
* `Exclusive` — a live authenticated connection is the one its user's entry
  names; so no two live connections are authenticated as one user.

Neither is an invariant of the actions. `sound_apply_iff` and
`exclusive_apply_iff` say of each exactly which actions keep it.
-/

namespace QQChat

structure Registry (κ υ : Type) where
  live : Finset κ
  user : κ → υ
  owner : υ → Option κ

namespace Registry

inductive Action (κ υ : Type) where
  | accept (c : κ)
  | login (c : κ) (u : υ)
  | stop (c : κ)
  | clear
  | idle

variable {κ υ : Type} [DecidableEq κ] [DecidableEq υ] [Zero υ]

def apply (r : Registry κ υ) : Action κ υ → Registry κ υ
  | .accept c => { r with live := insert c r.live, user := Function.update r.user c 0 }
  | .login c u =>
    { r with user := Function.update r.user c u, owner := Function.update r.owner u (some c) }
  | .stop c =>
    { r with
      owner := if r.user c ≠ 0 then Function.update r.owner (r.user c) none else r.owner
      live := r.live.erase c }
  | .clear => { r with live := ∅, owner := fun _ => none }
  | .idle => r

/-- Only an accept adds a connection. -/
theorem mem_live_apply {r : Registry κ υ} {a : Action κ υ} {d : κ}
    (h : d ∈ (r.apply a).live) : d ∈ r.live ∨ a = .accept d := by
  cases a with
  | accept c =>
    rcases Finset.mem_insert.mp h with rfl | hd
    · exact Or.inr rfl
    · exact Or.inl hd
  | login c u => exact Or.inl h
  | stop c => exact Or.inl (Finset.mem_of_mem_erase h)
  | clear => exact absurd h (Finset.notMem_empty d)
  | idle => exact Or.inl h

/-- Only a stop of the connection itself, or a clear, removes it. -/
theorem mem_live_apply_of_mem {r : Registry κ υ} {a : Action κ υ} {d : κ} (hd : d ∈ r.live)
    (hstop : a ≠ .stop d) (hclear : a ≠ .clear) : d ∈ (r.apply a).live := by
  cases a with
  | accept c => exact Finset.mem_insert_of_mem hd
  | login c u => exact hd
  | stop c =>
    refine Finset.mem_erase.mpr ⟨fun heq => ?_, hd⟩
    rw [heq] at hstop
    exact hstop rfl
  | clear => exact absurd rfl hclear
  | idle => exact hd

/-- When an action is taken: connections are new, and a user with an entry does
not log in. -/
def Enabled (r : Registry κ υ) : Action κ υ → Prop
  | .accept c => c ∉ r.live
  | .login _ u => r.owner u = none
  | _ => True

/-- Every entry names a live connection authenticated as that user. -/
def Sound (r : Registry κ υ) : Prop :=
  ∀ u c, r.owner u = some c → c ∈ r.live ∧ r.user c = u

/-- Every live authenticated connection is the one its user's entry names. -/
def Exclusive (r : Registry κ υ) : Prop :=
  ∀ c ∈ r.live, r.user c ≠ 0 → r.owner (r.user c) = some c

omit [DecidableEq κ] [DecidableEq υ] in
/-- Under `Exclusive`, a user has at most one live connection. -/
theorem Exclusive.eq_of_user_eq {r : Registry κ υ} (h : r.Exclusive) {c d : κ}
    (hc : c ∈ r.live) (hd : d ∈ r.live) (hu : r.user c = r.user d) (h0 : r.user c ≠ 0) :
    c = d := by
  have hc' := h c hc h0
  have hd' := h d hd (hu ▸ h0)
  rw [hu, hd'] at hc'
  exact (Option.some_inj.mp hc').symm

/-! ## Which actions keep the registry sound -/

/-- A login keeps every entry right when it is on a live connection that owns
no session yet. -/
def SafeLogin (r : Registry κ υ) : Action κ υ → Prop
  | .login c _ => c ∈ r.live ∧ r.owner (r.user c) ≠ some c
  | _ => True

theorem sound_accept {r : Registry κ υ} {c : κ} (hc : c ∉ r.live) (h : r.Sound) :
    (r.apply (.accept c)).Sound := by
  intro u d hd
  obtain ⟨hlive, huser⟩ := h u d hd
  have hne : d ≠ c := fun heq => hc (heq ▸ hlive)
  refine ⟨Finset.mem_insert_of_mem hlive, ?_⟩
  show Function.update r.user c 0 d = u
  rw [Function.update_of_ne hne, huser]

theorem sound_stop {r : Registry κ υ} {c : κ} (h0 : r.owner 0 = none) (h : r.Sound) :
    (r.apply (.stop c)).Sound := by
  intro u d hd
  have hd' : (if r.user c ≠ 0 then Function.update r.owner (r.user c) none else r.owner) u
      = some d := hd
  -- The entry of the stopped connection's user is gone, so another user's is left.
  have hu : u ≠ r.user c ∧ r.owner u = some d := by
    split at hd'
    next hne =>
      by_cases heq : u = r.user c
      · rw [heq, Function.update_self] at hd'
        cases hd'
      · rw [Function.update_of_ne heq] at hd'
        exact ⟨heq, hd'⟩
    next hzero =>
      refine ⟨fun heq => ?_, hd'⟩
      rw [heq, not_not.mp hzero, h0] at hd'
      cases hd'
  obtain ⟨hlive, huser⟩ := h u d hu.2
  have hne : d ≠ c := fun heq => hu.1 (by rw [← huser, heq])
  exact ⟨Finset.mem_erase.mpr ⟨hne, hlive⟩, huser⟩

theorem sound_login_iff {r : Registry κ υ} {c : κ} {u : υ} (hu : r.owner u = none)
    (h : r.Sound) : (r.apply (.login c u)).Sound ↔ r.SafeLogin (.login c u) := by
  constructor
  · intro hs
    refine ⟨(hs u c (Function.update_self ..)).1, fun hown => ?_⟩
    -- The entry of the connection's previous user would name `c` still.
    have hne : r.user c ≠ u := by
      intro heq
      rw [heq, hu] at hown
      cases hown
    have hkept : (r.apply (.login c u)).owner (r.user c) = some c :=
      (Function.update_of_ne hne ..).trans hown
    have huser : Function.update r.user c u c = r.user c := (hs (r.user c) c hkept).2
    rw [Function.update_self] at huser
    exact hne huser.symm
  · intro ⟨hc, hown⟩ v d hd
    by_cases hv : v = u
    · subst hv
      rw [show (r.apply (.login c v)).owner v = some c from Function.update_self ..] at hd
      cases hd
      exact ⟨hc, Function.update_self ..⟩
    · have hd' : r.owner v = some d := (Function.update_of_ne hv ..).symm.trans hd
      obtain ⟨hlive, huser⟩ := h v d hd'
      have hne : d ≠ c := by
        intro heq
        rw [heq] at huser hd'
        rw [huser] at hown
        exact hown hd'
      exact ⟨hlive, (Function.update_of_ne hne ..).trans huser⟩

/-- **The actions that keep a registry sound** are all but the unsafe logins. -/
theorem sound_apply_iff {r : Registry κ υ} {a : Action κ υ} (ha : r.Enabled a)
    (h0 : r.owner 0 = none) (h : r.Sound) : (r.apply a).Sound ↔ r.SafeLogin a := by
  cases a with
  | accept c => exact iff_of_true (sound_accept ha h) trivial
  | login c u => exact sound_login_iff ha h
  | stop c => exact iff_of_true (sound_stop h0 h) trivial
  | clear => exact iff_of_true (fun _ _ hd => nomatch hd) trivial
  | idle => exact iff_of_true h trivial

/-- The user `0` has no entry as long as it does not log in. -/
theorem owner_zero_apply {r : Registry κ υ} {a : Action κ υ}
    (ha : ∀ c u, a = .login c u → u ≠ 0) (h0 : r.owner 0 = none) :
    (r.apply a).owner 0 = none := by
  cases a with
  | accept c => exact h0
  | login c u => exact (Function.update_of_ne (ha c u rfl).symm ..).trans h0
  | stop c =>
    show (if r.user c ≠ 0 then Function.update r.owner (r.user c) none else r.owner) 0 = none
    split
    next hne => exact (Function.update_of_ne (Ne.symm hne) ..).trans h0
    next => exact h0
  | clear => rfl
  | idle => exact h0

/-! ## Which actions keep it exclusive -/

/-- Stopping a connection takes no entry from another live one. -/
def KeepsOthers (r : Registry κ υ) : Action κ υ → Prop
  | .stop c => ∀ u d, d ≠ c → d ∈ r.live → r.owner u = some d →
      (r.apply (.stop c)).owner u = some d
  | _ => True

/-- A stop does no harm when the connection is still live, never had a user, or
its user's entry does not name another live connection. -/
def SafeStop (r : Registry κ υ) : Action κ υ → Prop
  | .stop c => c ∈ r.live ∨ r.user c = 0
      ∨ ∀ d, r.owner (r.user c) = some d → d = c ∨ d ∉ r.live
  | _ => True

theorem exclusive_accept {r : Registry κ υ} {c : κ} (h : r.Exclusive) :
    (r.apply (.accept c)).Exclusive := by
  intro d hd h0
  by_cases hne : d = c
  · subst hne
    exact absurd (Function.update_self ..) h0
  · have hlive : d ∈ r.live := Finset.mem_of_mem_insert_of_ne hd hne
    have huser : (r.apply (.accept c)).user d = r.user d := Function.update_of_ne hne ..
    rw [huser] at h0 ⊢
    exact h d hlive h0

theorem exclusive_login {r : Registry κ υ} {c : κ} {u : υ} (hu : r.owner u = none)
    (h : r.Exclusive) : (r.apply (.login c u)).Exclusive := by
  intro d hd h0
  by_cases hne : d = c
  · subst hne
    have huser : (r.apply (.login d u)).user d = u := Function.update_self ..
    rw [huser]
    exact Function.update_self ..
  · have huser : (r.apply (.login c u)).user d = r.user d := Function.update_of_ne hne ..
    rw [huser] at h0 ⊢
    have hown := h d hd h0
    have hne' : r.user d ≠ u := by
      intro heq
      rw [heq, hu] at hown
      cases hown
    exact (Function.update_of_ne hne' ..).trans hown

/-- An entry outlives a stop unless it is filed under the connection's user. -/
theorem owner_stop {r : Registry κ υ} {c : κ} {u : υ} (h : r.user c = 0 ∨ u ≠ r.user c) :
    (r.apply (.stop c)).owner u = r.owner u := by
  show (if r.user c ≠ 0 then Function.update r.owner (r.user c) none else r.owner) u = _
  split
  next hne => exact Function.update_of_ne (h.resolve_left hne) ..
  next => rfl

theorem owner_stop_self {r : Registry κ υ} {c : κ} (h : r.user c ≠ 0) :
    (r.apply (.stop c)).owner (r.user c) = none := by
  show (if r.user c ≠ 0 then Function.update r.owner (r.user c) none else r.owner) _ = _
  rw [if_pos h, Function.update_self]

theorem keepsOthers_stop_iff {r : Registry κ υ} {c : κ} (h : r.Exclusive) :
    r.KeepsOthers (.stop c) ↔ r.SafeStop (.stop c) := by
  constructor
  · -- A live connection under `c`'s user would keep the entry that the stop erases.
    intro hk
    by_cases h0 : r.user c = 0
    · exact Or.inr (Or.inl h0)
    refine Or.inr (Or.inr fun d hd => ?_)
    by_cases hne : d = c
    · exact Or.inl hne
    refine Or.inr fun hlive => ?_
    have hkept := hk (r.user c) d hne hlive hd
    rw [owner_stop_self h0] at hkept
    cases hkept
  · intro hs u d hne hlive hown
    by_cases h0 : r.user c = 0
    · rw [owner_stop (Or.inl h0), hown]
    by_cases hu : u = r.user c
    · -- The entry is filed under `c`'s user, so it would have to be `c`'s own.
      subst hu
      rcases hs with hc | hz | hothers
      · rw [h c hc h0] at hown
        exact absurd (Option.some_inj.mp hown).symm hne
      · exact absurd hz h0
      · rcases hothers d hown with heq | hdead
        · exact absurd heq hne
        · exact absurd hlive hdead
    · rw [owner_stop (Or.inr hu), hown]

theorem exclusive_stop {r : Registry κ υ} {c : κ} (hk : r.KeepsOthers (.stop c))
    (h : r.Exclusive) : (r.apply (.stop c)).Exclusive := by
  intro d hd h0
  obtain ⟨hne, hlive⟩ := Finset.mem_erase.mp hd
  exact hk (r.user d) d hne hlive (h d hlive h0)

/-- **The actions that keep a registry exclusive**, and take no entry from
another live connection, are all but the unsafe stops. -/
theorem exclusive_apply_iff {r : Registry κ υ} {a : Action κ υ} (ha : r.Enabled a)
    (h : r.Exclusive) : ((r.apply a).Exclusive ∧ r.KeepsOthers a) ↔ r.SafeStop a := by
  cases a with
  | accept c => exact iff_of_true ⟨exclusive_accept h, trivial⟩ trivial
  | login c u => exact iff_of_true ⟨exclusive_login ha h, trivial⟩ trivial
  | stop c =>
    rw [← keepsOthers_stop_iff h]
    exact ⟨fun hs => hs.2, fun hk => ⟨exclusive_stop hk h, hk⟩⟩
  | clear =>
    have hempty : (r.apply .clear).Exclusive := fun c hc => absurd hc (Finset.notMem_empty c)
    exact iff_of_true ⟨hempty, trivial⟩ trivial
  | idle => exact iff_of_true ⟨h, trivial⟩ trivial

end Registry

end QQChat
