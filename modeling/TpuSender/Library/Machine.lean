import Mathlib.Data.List.Infix

/-!
# Machine — labelled machines and what holds along their runs

A `Machine` is a partial step function.  Its labels carry every choice that the program does not
make itself: the scheduler's, the network's, the clock's.  A label that is not enabled in a state
has no successor there, so a theorem about every list of labels is a theorem about every
interleaving.

This file collects the rules the development uses on runs:

* `Machine.run_invariant` — what one step preserves, a run preserves;
* `Machine.exists_turn` — the step that brings about what holds at the end and did not at the start;
* `Machine.exists_run` — what never gets stuck on a step never gets stuck on a run;
* `Machine.run_invariant_of_steps` — the same for runs whose steps all meet a condition;
* `Machine.run_iff_steps` — a condition on steps that is exactly what a property at the end needs;
* `Machine.always_iff_steps` — a condition on steps that is exactly what keeps a property;
* `Machine.run_invariant_of_always` — an invariant that needs a property of every state passed;
* `Machine.run_history_invariant` — an invariant that ties a state to what was observed before it;
* `Machine.run_measure` — a measure that counts steps bounds the runs;
* `Machine.run_countP_le` — a measure that some steps lower bounds how many of them there are;
* `Machine.run_length_le` — a measure that every step raises, up to the credit some of them bring;
* `Machine.exists_rest` — a run of the labels that raise a bounded measure, up to where it rests;
* `Machine.run_rel` — a reflexive and transitive relation that every step respects;
* `Machine.run_simulation` — steps that are matched by runs of another machine;
* `Machine.run_projection` — the same with the other machine's run written down;
* `Machine.run_view`, `Machine.exists_run_of_view` — runs seen through some of their labels.
-/

namespace TpuSender
namespace Library

/-- A deterministic machine over labels; `none` means that the label is not enabled. -/
structure Machine (State Label : Type*) where
  next : State → Label → Option State

namespace Machine

variable {State Label : Type*} (M : Machine State Label)

/-! ## Runs -/

/-- The state after a list of labels, if each of them is enabled in its turn. -/
def run : State → List Label → Option State
  | s, [] => some s
  | s, l :: ls => (M.next s l).bind fun t => run t ls

@[simp] theorem run_nil (s : State) : M.run s [] = some s := rfl

theorem run_cons_eq_some {s u : State} {l : Label} {ls : List Label} :
    M.run s (l :: ls) = some u ↔ ∃ t, M.next s l = some t ∧ M.run t ls = some u := by
  simp [run, Option.bind_eq_some_iff]

theorem run_append (s : State) (ls ms : List Label) :
    M.run s (ls ++ ms) = (M.run s ls).bind fun t => M.run t ms := by
  induction ls generalizing s with
  | nil => simp
  | cons l ls ih =>
      cases hstep : M.next s l with
      | none => simp [run, hstep]
      | some t => simpa [run, hstep] using ih t

theorem run_append_eq_some {s u : State} {ls ms : List Label} :
    M.run s (ls ++ ms) = some u ↔ ∃ t, M.run s ls = some t ∧ M.run t ms = some u := by
  rw [run_append, Option.bind_eq_some_iff]

/-- `t` is reached from `s` by some run. -/
def Reachable (s t : State) : Prop := ∃ ls, M.run s ls = some t

theorem Reachable.refl (s : State) : M.Reachable s s := ⟨[], rfl⟩

theorem Reachable.trans {s t u : State} (h₁ : M.Reachable s t) (h₂ : M.Reachable t u) :
    M.Reachable s u := by
  rcases h₁ with ⟨ls, hls⟩
  rcases h₂ with ⟨ms, hms⟩
  exact ⟨ls ++ ms, (M.run_append_eq_some).2 ⟨t, hls, hms⟩⟩

/-! ## Invariants -/

/-- What every step preserves, every run preserves. -/
theorem run_invariant {I : State → Prop}
    (hstep : ∀ s l t, I s → M.next s l = some t → I t)
    {s t : State} {ls : List Label} (hs : I s) (hrun : M.run s ls = some t) : I t := by
  induction ls generalizing s with
  | nil =>
      have hst : s = t := by simpa using hrun
      exact hst ▸ hs
  | cons l ls ih =>
      rcases (M.run_cons_eq_some).1 hrun with ⟨u, hu, hrest⟩
      exact ih (hstep s l u hs hu) hrest

/-- A run that ends in `Q` and has not started in it has a step that leads into `Q`. -/
theorem exists_turn {Q : State → Prop} {s t : State} {ls : List Label} (hs : ¬ Q s) (ht : Q t)
    (hrun : M.run s ls = some t) :
    ∃ before l after u v, ls = before ++ l :: after ∧ M.run s before = some u ∧
      M.next u l = some v ∧ ¬ Q u ∧ Q v := by
  induction ls generalizing s with
  | nil =>
      have hst : s = t := by simpa using hrun
      exact absurd (hst ▸ ht) hs
  | cons l ls ih =>
      rcases (M.run_cons_eq_some).1 hrun with ⟨u, hu, hrest⟩
      by_cases hQ : Q u
      · exact ⟨[], l, ls, s, u, rfl, rfl, hu, hs, hQ⟩
      · rcases ih hQ hrest with ⟨before, m, after, v, w, rfl, hbefore, hnext, hv, hw⟩
        exact ⟨l :: before, m, after, v, w, rfl,
          (M.run_cons_eq_some).2 ⟨u, hu, hbefore⟩, hnext, hv, hw⟩

/-- If the labels that meet `F` are enabled in every state of `I` and lead back to `I`, then every
list of them can be run. -/
theorem exists_run {I : State → Prop} {F : Label → Prop}
    (hstep : ∀ s l, I s → F l → ∃ t, M.next s l = some t ∧ I t)
    {s : State} {ls : List Label} (hs : I s) (hls : ∀ l ∈ ls, F l) :
    ∃ t, M.run s ls = some t ∧ I t := by
  induction ls generalizing s with
  | nil => exact ⟨s, rfl, hs⟩
  | cons l ls ih =>
      rcases hstep s l hs (hls l List.mem_cons_self) with ⟨u, hu, hIu⟩
      rcases ih hIu (fun m hm => hls m (List.mem_cons_of_mem l hm)) with ⟨t, ht, hIt⟩
      exact ⟨t, (M.run_cons_eq_some).2 ⟨u, hu, ht⟩, hIt⟩

/-- Every step of the run of `ls` from `s` meets `C`, which may look at the state before the step
and at its label. -/
def Steps (C : State → Label → Prop) : State → List Label → Prop
  | _, [] => True
  | s, l :: ls => ∀ t, M.next s l = some t → C s l ∧ Steps C t ls

/-- A condition on labels alone. -/
theorem Steps.of_labels {F : Label → Prop} {s : State} {ls : List Label} (h : ∀ l ∈ ls, F l) :
    M.Steps (fun _ l => F l) s ls := by
  induction ls generalizing s with
  | nil => trivial
  | cons l ls ih =>
      intro t _
      exact ⟨h l List.mem_cons_self, ih fun m hm => h m (List.mem_cons_of_mem l hm)⟩

theorem Steps.and {C D : State → Label → Prop} {s : State} {ls : List Label} (hC : M.Steps C s ls)
    (hD : M.Steps D s ls) : M.Steps (fun s l => C s l ∧ D s l) s ls := by
  induction ls generalizing s with
  | nil => trivial
  | cons l ls ih =>
      intro t ht
      rcases hC t ht with ⟨hCs, hCtail⟩
      rcases hD t ht with ⟨hDs, hDtail⟩
      exact ⟨⟨hCs, hDs⟩, ih hCtail hDtail⟩

theorem Steps.of_append {C : State → Label → Prop} {s : State} {ls ms : List Label}
    (h : M.Steps C s (ls ++ ms)) : M.Steps C s ls := by
  induction ls generalizing s with
  | nil => trivial
  | cons l ls ih =>
      intro t ht
      rcases h t ht with ⟨hhead, htail⟩
      exact ⟨hhead, ih htail⟩

theorem Steps.after {C : State → Label → Prop} {s t : State} {ls ms : List Label}
    (h : M.Steps C s (ls ++ ms)) (hrun : M.run s ls = some t) : M.Steps C t ms := by
  induction ls generalizing s with
  | nil =>
      have hst : s = t := by simpa using hrun
      exact hst ▸ h
  | cons l ls ih =>
      rcases (M.run_cons_eq_some).1 hrun with ⟨u, hu, hrest⟩
      exact ih (h u hu).2 hrest

theorem Steps.mono {C D : State → Label → Prop} (hCD : ∀ s l, C s l → D s l) {s : State}
    {ls : List Label} (h : M.Steps C s ls) : M.Steps D s ls := by
  induction ls generalizing s with
  | nil => trivial
  | cons l ls ih =>
      intro t ht
      rcases h t ht with ⟨hhead, htail⟩
      exact ⟨hCD s l hhead, ih htail⟩

/-- If in the states of an invariant a step that meets `D` meets `C` as well, then in a run whose
steps all meet `D` they all meet `C`. -/
theorem Steps.of_invariant {I : State → Prop} {C D : State → Label → Prop}
    (hinv : ∀ s l t, I s → D s l → M.next s l = some t → I t)
    (hCD : ∀ s l t, I s → D s l → M.next s l = some t → C s l) {s : State} {ls : List Label}
    (hs : I s) (h : M.Steps D s ls) : M.Steps C s ls := by
  induction ls generalizing s with
  | nil => trivial
  | cons l ls ih =>
      intro t ht
      rcases h t ht with ⟨hhead, htail⟩
      exact ⟨hCD s l t hs hhead ht, ih (hinv s l t hs hhead ht) htail⟩

/-- What every step that meets `C` preserves, every run of such steps preserves. -/
theorem run_invariant_of_steps {I : State → Prop} {C : State → Label → Prop}
    (hstep : ∀ s l t, I s → C s l → M.next s l = some t → I t)
    {s t : State} {ls : List Label} (hs : I s) (hC : M.Steps C s ls)
    (hrun : M.run s ls = some t) : I t := by
  induction ls generalizing s with
  | nil =>
      have hst : s = t := by simpa using hrun
      exact hst ▸ hs
  | cons l ls ih =>
      rcases (M.run_cons_eq_some).1 hrun with ⟨u, hu, hrest⟩
      rcases hC u hu with ⟨hhead, htail⟩
      exact ih (hstep s l u hs hhead hu) htail hrest

/-- If a step ends in `P` exactly when it starts in `P` and meets `C`, then a run ends in `P`
exactly when it starts in `P` and all its steps meet `C`. -/
theorem run_iff_steps {I P : State → Prop} {F : Label → Prop} {C : State → Label → Prop}
    (hinv : ∀ s l t, I s → F l → M.next s l = some t → I t)
    (hstep : ∀ s l t, I s → F l → M.next s l = some t → (P t ↔ P s ∧ C s l))
    {s t : State} {ls : List Label} (hI : I s) (hF : ∀ l ∈ ls, F l)
    (hrun : M.run s ls = some t) : P t ↔ P s ∧ M.Steps C s ls := by
  induction ls generalizing s with
  | nil =>
      have hst : s = t := by simpa using hrun
      exact hst ▸ (and_iff_left trivial).symm
  | cons l ls ih =>
      rcases (M.run_cons_eq_some).1 hrun with ⟨u, hu, hrest⟩
      have hl : F l := hF l List.mem_cons_self
      have hls : ∀ m ∈ ls, F m := fun m hm => hF m (List.mem_cons_of_mem l hm)
      -- the run has one first step, so `Steps` speaks about `u` alone
      have hcons : M.Steps C s (l :: ls) ↔ C s l ∧ M.Steps C u ls := by
        constructor
        · intro h
          exact h u hu
        · intro h v hv
          have huv : u = v := by simpa using hu.symm.trans hv
          exact huv ▸ h
      rw [ih (hinv s l u hI hl hu) hls hrest, hstep s l u hI hl hu, hcons, and_assoc]

/-! ## States along a run -/

/-- `P` holds in every state that the run of `ls` from `s` goes through, `s` included. -/
def Always (P : State → Prop) (s : State) (ls : List Label) : Prop :=
  ∀ ms, ms <+: ls → ∀ t, M.run s ms = some t → P t

theorem always_nil_iff {P : State → Prop} {s : State} : M.Always P s [] ↔ P s := by
  constructor
  · intro h
    exact h [] List.nil_prefix s rfl
  · intro hs ms hms t hrun
    have hnil : ms = [] := List.prefix_nil.1 hms
    subst hnil
    have hst : s = t := by simpa using hrun
    exact hst ▸ hs

theorem always_cons_iff {P : State → Prop} {s : State} {l : Label} {ls : List Label} :
    M.Always P s (l :: ls) ↔ P s ∧ ∀ t, M.next s l = some t → M.Always P t ls := by
  constructor
  · intro h
    refine ⟨h [] List.nil_prefix s rfl, ?_⟩
    intro t ht ms hms u hrun
    have hpre : l :: ms <+: l :: ls := by simpa using hms
    exact h (l :: ms) hpre u ((M.run_cons_eq_some).2 ⟨t, ht, hrun⟩)
  · rintro ⟨hs, htail⟩ ms hms t hrun
    cases ms with
    | nil =>
        have hst : s = t := by simpa using hrun
        exact hst ▸ hs
    | cons m ms =>
        rcases List.cons_prefix_cons.1 hms with ⟨rfl, hpre⟩
        rcases (M.run_cons_eq_some).1 hrun with ⟨u, hu, hrest⟩
        exact htail u hu ms hpre t hrest

/-- If under an invariant a step keeps `P` exactly when it meets `C`, then a run keeps `P` in all
its states exactly when all its steps meet `C`. -/
theorem always_iff_steps {I P : State → Prop} {F : Label → Prop} {C : State → Label → Prop}
    (hinv : ∀ s l t, I s → F l → M.next s l = some t → I t)
    (hstep : ∀ s l t, I s → F l → P s → M.next s l = some t → (P t ↔ C s l))
    {s : State} {ls : List Label} (hI : I s) (hP : P s) (hF : ∀ l ∈ ls, F l) :
    M.Always P s ls ↔ M.Steps C s ls := by
  induction ls generalizing s with
  | nil =>
      refine iff_of_true ?_ trivial
      intro ms hms t hrun
      have hnil : ms = [] := List.prefix_nil.1 hms
      subst hnil
      have hst : s = t := by simpa using hrun
      exact hst ▸ hP
  | cons l ls ih =>
      have hl : F l := hF l List.mem_cons_self
      have hls : ∀ m ∈ ls, F m := fun m hm => hF m (List.mem_cons_of_mem l hm)
      rw [always_cons_iff]
      constructor
      · rintro ⟨_, htail⟩ t ht
        have hPt : P t := htail t ht [] List.nil_prefix t rfl
        exact ⟨(hstep s l t hI hl hP ht).1 hPt, (ih (hinv s l t hI hl ht) hPt hls).1 (htail t ht)⟩
      · intro h
        refine ⟨hP, ?_⟩
        intro t ht
        rcases h t ht with ⟨hC, htail⟩
        have hPt : P t := (hstep s l t hI hl hP ht).2 hC
        exact (ih (hinv s l t hI hl ht) hPt hls).2 htail

/-- What a step between states that meet `P` preserves, a run through such states preserves. -/
theorem run_invariant_of_always {I P : State → Prop} {F : Label → Prop}
    (hstep : ∀ s l t, I s → F l → P t → M.next s l = some t → I t)
    {s t : State} {ls : List Label} (hs : I s) (hF : ∀ l ∈ ls, F l) (hP : M.Always P s ls)
    (hrun : M.run s ls = some t) : I t := by
  induction ls generalizing s with
  | nil =>
      have hst : s = t := by simpa using hrun
      exact hst ▸ hs
  | cons l ls ih =>
      rcases (M.run_cons_eq_some).1 hrun with ⟨u, hu, hrest⟩
      have htail : M.Always P u ls := ((always_cons_iff M).1 hP).2 u hu
      have hPu : P u := htail [] List.nil_prefix u rfl
      exact ih (hstep s l u hs (hF l List.mem_cons_self) hPu hu)
        (fun m hm => hF m (List.mem_cons_of_mem l hm)) htail hrest

/-! ## What is observed along a run -/

/-- What an observer who sees each step before it is taken has written down at the end, oldest
first. -/
def history {Obs : Type*} (observe : State → Label → List Obs) : State → List Label → List Obs
  | _, [] => []
  | s, l :: ls =>
      match M.next s l with
      | some t => observe s l ++ history observe t ls
      | none => []

/-- If every step that meets `C` keeps `I` between the observations and the state, every run of such
steps does; `past` is what was observed before the run. -/
theorem run_history_invariant {Obs : Type*} {observe : State → Label → List Obs}
    {I : List Obs → State → Prop} {C : State → Label → Prop}
    (hstep : ∀ past s l t, I past s → C s l → M.next s l = some t → I (past ++ observe s l) t)
    {past : List Obs} {s t : State} {ls : List Label} (hs : I past s) (hC : M.Steps C s ls)
    (hrun : M.run s ls = some t) : I (past ++ M.history observe s ls) t := by
  induction ls generalizing past s with
  | nil =>
      have hst : s = t := by simpa using hrun
      subst hst
      simpa [history] using hs
  | cons l ls ih =>
      rcases (M.run_cons_eq_some).1 hrun with ⟨u, hu, hrest⟩
      rcases hC u hu with ⟨hhead, htail⟩
      have hnext := ih (hstep past s l u hs hhead hu) htail hrest
      simpa [history, hu] using hnext

/-- An observer who sees `f` of what another sees of each step has `f` of the other's history. -/
theorem history_map {Obs Obs' : Type*} {observe : State → Label → List Obs}
    {observe' : State → Label → List Obs'} {f : Obs → Obs'}
    (hstep : ∀ s l t, M.next s l = some t → (observe s l).map f = observe' s l) (s : State)
    (ls : List Label) : (M.history observe s ls).map f = M.history observe' s ls := by
  induction ls generalizing s with
  | nil => rfl
  | cons l ls ih =>
      cases hnext : M.next s l with
      | none => simp [history, hnext]
      | some t => simp [history, hnext, hstep s l t hnext, ih]

/-- What goes into a queue comes out of it in order, or is still there: if this is so for every
step, it is so for every run. -/
theorem run_queue {Obs : Type*} {enters leaves : State → Label → List Obs}
    {queue : State → List Obs}
    (hstep : ∀ s l t, M.next s l = some t → leaves s l ++ queue t = queue s ++ enters s l)
    {s t : State} {ls : List Label} (hrun : M.run s ls = some t) :
    M.history leaves s ls ++ queue t = queue s ++ M.history enters s ls := by
  induction ls generalizing s with
  | nil =>
      have hst : s = t := by simpa using hrun
      subst hst
      simp [history]
  | cons l ls ih =>
      rcases (M.run_cons_eq_some).1 hrun with ⟨u, hu, hrest⟩
      calc
        M.history leaves s (l :: ls) ++ queue t
            = leaves s l ++ (M.history leaves u ls ++ queue t) := by simp [history, hu]
        _ = (leaves s l ++ queue u) ++ M.history enters u ls := by rw [ih hrest, List.append_assoc]
        _ = queue s ++ M.history enters s (l :: ls) := by simp [hstep s l u hu, history, hu]

/-! ## Relations between the ends of a run -/

/-- A preorder that relates the ends of every step relates the ends of every run; `I` is an
invariant the steps may rely on. -/
theorem run_rel {I : State → Prop} {C : State → Label → Prop} {R : State → State → Prop}
    (hrefl : ∀ s, I s → R s s) (htrans : ∀ s t u, R s t → R t u → R s u)
    (hinv : ∀ s l t, I s → C s l → M.next s l = some t → I t)
    (hstep : ∀ s l t, I s → C s l → M.next s l = some t → R s t)
    {s t : State} {ls : List Label} (hs : I s) (hC : M.Steps C s ls)
    (hrun : M.run s ls = some t) : R s t := by
  induction ls generalizing s with
  | nil =>
      have hst : s = t := by simpa using hrun
      exact hst ▸ hrefl s hs
  | cons l ls ih =>
      rcases (M.run_cons_eq_some).1 hrun with ⟨u, hu, hrest⟩
      rcases hC u hu with ⟨hCs, hCu⟩
      have hhead : R s u := hstep s l u hs hCs hu
      have htail : R u t := ih (hinv s l u hs hCs hu) hCu hrest
      exact htrans s u t hhead htail

/-- A measure that every step raises by one counts the steps of a run. -/
theorem run_measure {m : State → Nat} (hstep : ∀ s l t, M.next s l = some t → m t = m s + 1)
    {s t : State} {ls : List Label} (hrun : M.run s ls = some t) : m t = m s + ls.length := by
  induction ls generalizing s with
  | nil =>
      have hst : s = t := by simpa using hrun
      exact hst ▸ rfl
  | cons l ls ih =>
      rcases (M.run_cons_eq_some).1 hrun with ⟨u, hu, hrest⟩
      calc
        m t = m u + ls.length := ih hrest
        _ = m s + 1 + ls.length := by rw [hstep s l u hu]
        _ = m s + (l :: ls).length := by rw [List.length_cons, Nat.add_assoc, Nat.add_comm 1]

/-- A measure that no step raises, and that the steps whose labels are counted lower, bounds how
many of these there are in a run. -/
theorem run_countP_le {I : State → Prop} {m : State → Nat} {p : Label → Bool}
    (hinv : ∀ s l t, I s → M.next s l = some t → I t)
    (hstep : ∀ s l t, I s → I t → M.next s l = some t → m t + (if p l then 1 else 0) ≤ m s)
    {s t : State} {ls : List Label} (hs : I s) (hrun : M.run s ls = some t) :
    m t + ls.countP p ≤ m s := by
  induction ls generalizing s with
  | nil =>
      have hst : s = t := by simpa using hrun
      exact hst ▸ le_rfl
  | cons l ls ih =>
      rcases (M.run_cons_eq_some).1 hrun with ⟨u, hu, hrest⟩
      have hIu : I u := hinv s l u hs hu
      calc
        m t + (l :: ls).countP p = m t + ls.countP p + (if p l then 1 else 0) := by
          rw [List.countP_cons, Nat.add_assoc]
        _ ≤ m u + (if p l then 1 else 0) := Nat.add_le_add_right (ih hIu hrest) _
        _ ≤ m s := hstep s l u hs hIu hu

/-- A measure that every step raises, were it not for the credit that the labels of `p` take from
it, bounds a run by the credit taken. -/
theorem run_length_le {I : State → Prop} {m : State → Nat} {p : Label → Bool} {credit : Nat}
    (hinv : ∀ s l t, I s → M.next s l = some t → I t)
    (hstep : ∀ s l t, I s → M.next s l = some t → m s + 1 ≤ m t + if p l then credit else 0)
    {s t : State} {ls : List Label} (hs : I s) (hrun : M.run s ls = some t) :
    m s + ls.length ≤ m t + credit * ls.countP p := by
  induction ls generalizing s with
  | nil =>
      have hst : s = t := by simpa using hrun
      exact hst ▸ le_rfl
  | cons l ls ih =>
      rcases (M.run_cons_eq_some).1 hrun with ⟨u, hu, hrest⟩
      have hhead : m s + 1 ≤ m u + if p l then credit else 0 := hstep s l u hs hu
      have htail : m u + ls.length ≤ m t + credit * ls.countP p := ih (hinv s l u hs hu) hrest
      have hcount : credit * (l :: ls).countP p =
          credit * ls.countP p + if p l then credit else 0 := by
        cases hl : p l with
        | true => simp [hl, Nat.mul_add]
        | false => simp [hl]
      rw [hcount, List.length_cons]
      omega

/-- When the labels of `F` raise a measure that is bounded, they can be taken until none of them is
enabled. -/
theorem exists_rest {I : State → Prop} {F : Label → Prop} {m : State → Nat} {bound : Nat}
    (hinv : ∀ s l t, I s → F l → M.next s l = some t → I t)
    (hstep : ∀ s l t, I s → F l → M.next s l = some t → m s < m t)
    (hbound : ∀ s, I s → m s ≤ bound) {s : State} (hs : I s) :
    ∃ ls t, (∀ l ∈ ls, F l) ∧ M.run s ls = some t ∧ I t ∧ ∀ l, F l → M.next t l = none := by
  -- the induction is on the room that the measure has left
  induction hroom : bound - m s using Nat.strong_induction_on generalizing s with
  | _ room ih =>
      by_cases henabled : ∃ l t, F l ∧ M.next s l = some t
      · rcases henabled with ⟨l, t, hl, ht⟩
        have hIt : I t := hinv s l t hs hl ht
        have hrise : m s < m t := hstep s l t hs hl ht
        have hle : m t ≤ bound := hbound t hIt
        rcases ih (bound - m t) (by omega) hIt rfl with ⟨ls, u, hls, hrun, hIu, hrest⟩
        refine ⟨l :: ls, u, ?_, (M.run_cons_eq_some).2 ⟨t, ht, hrun⟩, hIu, hrest⟩
        intro k hk
        rcases List.mem_cons.1 hk with rfl | hk
        · exact hl
        · exact hls k hk
      · refine ⟨[], s, by simp, rfl, hs, ?_⟩
        intro l hl
        cases ht : M.next s l with
        | none => rfl
        | some t => exact absurd ⟨l, t, hl, ht⟩ henabled

/-! ## Simulation -/

/-- If every step of `M` is matched by a run of `N` between the images of its ends, every run of
`M` is. -/
theorem run_simulation {State' Label' : Type*} (N : Machine State' Label') (f : State → State')
    (hstep : ∀ s l t, M.next s l = some t → ∃ ms, N.run (f s) ms = some (f t))
    {s t : State} {ls : List Label} (hrun : M.run s ls = some t) :
    ∃ ms, N.run (f s) ms = some (f t) := by
  have hreach : N.Reachable (f s) (f t) := by
    refine M.run_invariant (I := fun u => N.Reachable (f s) (f u)) ?_ (Reachable.refl N (f s)) hrun
    intro u l v hu hnext
    exact Reachable.trans N hu (hstep u l v hnext)
  exact hreach

/-- If what is observed of every step of `M` is a run of `N` between the images of its ends, what is
observed of a run of `M` is a run of `N`. -/
theorem run_projection {State' Label' : Type*} (N : Machine State' Label') (f : State → State')
    {observe : State → Label → List Label'}
    (hstep : ∀ s l t, M.next s l = some t → N.run (f s) (observe s l) = some (f t))
    {s t : State} {ls : List Label} (hrun : M.run s ls = some t) :
    N.run (f s) (M.history observe s ls) = some (f t) := by
  induction ls generalizing s with
  | nil =>
      have hst : s = t := by simpa using hrun
      exact hst ▸ rfl
  | cons l ls ih =>
      rcases (M.run_cons_eq_some).1 hrun with ⟨u, hu, hrest⟩
      have hhead : N.run (f s) (observe s l) = some (f u) := hstep s l u hu
      simp only [history, hu]
      exact (N.run_append_eq_some).2 ⟨f u, hhead, ih hrest⟩

/-- If what `view` lets through of every step is a step of `N` between the images of its ends, what
it lets through of a run is a run of `N`. -/
theorem run_view {State' Label' : Type*} (N : Machine State' Label') (f : State → State')
    {view : Label → Option Label'}
    (hstep : ∀ s l t, M.next s l = some t → N.run (f s) (view l).toList = some (f t))
    {s t : State} {ls : List Label} (hrun : M.run s ls = some t) :
    N.run (f s) (ls.filterMap view) = some (f t) := by
  induction ls generalizing s with
  | nil =>
      have hst : s = t := by simpa using hrun
      exact hst ▸ rfl
  | cons l ls ih =>
      rcases (M.run_cons_eq_some).1 hrun with ⟨u, hu, hrest⟩
      have hsplit : (l :: ls).filterMap view = (view l).toList ++ ls.filterMap view := by
        cases hview : view l with
        | none => simp [hview]
        | some l' => simp [hview]
      rw [hsplit]
      exact (N.run_append_eq_some).2 ⟨f u, hstep s l u hu, ih hrest⟩

/-- If from every state of an invariant a step of `N` is what `view` lets through of some run that
leads back to the invariant, then every run of `N` is what it lets through of some run. -/
theorem exists_run_of_view {State' Label' : Type*} (N : Machine State' Label') (f : State → State')
    {I : State → Prop} {view : Label → Option Label'}
    (hstep : ∀ s l' u, I s → N.next (f s) l' = some u →
      ∃ ls t, M.run s ls = some t ∧ I t ∧ f t = u ∧ ls.filterMap view = [l'])
    {s : State} {u : State'} {ls' : List Label'} (hs : I s) (hrun : N.run (f s) ls' = some u) :
    ∃ ls t, M.run s ls = some t ∧ I t ∧ f t = u ∧ ls.filterMap view = ls' := by
  induction ls' generalizing s with
  | nil =>
      have hsu : f s = u := by simpa using hrun
      exact ⟨[], s, rfl, hs, hsu, rfl⟩
  | cons l' ls' ih =>
      rcases (N.run_cons_eq_some).1 hrun with ⟨v, hv, hrest⟩
      rcases hstep s l' v hs hv with ⟨ls, t, hls, ht, rfl, hview⟩
      rcases ih ht hrest with ⟨ms, w, hms, hIw, hw, hviews⟩
      refine ⟨ls ++ ms, w, (M.run_append_eq_some).2 ⟨t, hls, hms⟩, hIw, hw, ?_⟩
      rw [List.filterMap_append, hview, hviews, List.singleton_append]

end Machine

end Library
end TpuSender
