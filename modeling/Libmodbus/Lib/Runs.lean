/-
Libmodbus/Lib/Runs.lean

Runs of a state machine that is driven by a list of inputs and answers each
with an output.  A step may stop (see `CSem.Stop`); then so does the run.

Three rules carry a fact from one step to whole runs.  `runs_inv` is the
invariant rule: what every step keeps holds after any run, and what every step
says of its output holds of all of them.  `runs_inv_of_last` is the same for
runs that end in a state with a condition on what has happened so far.
`runs_of_simulation` is the refinement rule: a machine whose every step matches a step of a second,
stop-free machine gives the same outputs as that machine on every run.  `runs_progress` says when no
run stops, `runs_cost` adds up what the steps cost, and `runs_reach` counts down to a step that
is waited for.  `runs_congr` compares two machines that
agree where an invariant holds.  Two rules compare stop-free machines: `specRuns_map` by translated
outputs, `specRuns_project` by a view of the state.
-/
import Libmodbus.Lib.C

namespace CSem

variable {ι ο σ τ : Type}

/-- The outputs and the last state of a run over `is`. -/
def runs (step : ι → σ → Run (ο × σ)) : List ι → σ → Run (List ο × σ)
  | [], s => .ok ([], s)
  | i :: is, s => do
    let (o, s) ← step i s
    let (os, s) ← runs step is s
    .ok (o :: os, s)

/-- The same for a machine that never stops. -/
def specRuns (spec : ι → τ → ο × τ) : List ι → τ → List ο × τ
  | [], t => ([], t)
  | i :: is, t =>
    let (o, t) := spec i t
    let (os, t) := specRuns spec is t
    (o :: os, t)

@[simp] theorem runs_nil (step : ι → σ → Run (ο × σ)) (s : σ) : runs step [] s = .ok ([], s) := rfl

theorem runs_cons_ok {step : ι → σ → Run (ο × σ)} {i : ι} {is : List ι} {s s' : σ} {o : ο}
    (h : step i s = .ok (o, s')) :
    runs step (i :: is) s = (runs step is s').map fun r => (o :: r.1, r.2) := by
  simp only [runs, h, ok_bind]
  cases runs step is s' <;> rfl

/-- The first step of a run that ends normally. -/
theorem runs_cons_eq_ok {step : ι → σ → Run (ο × σ)} {i : ι} {is : List ι} {s s'' : σ}
    {os : List ο} (h : runs step (i :: is) s = .ok (os, s'')) :
    ∃ o s' os', step i s = .ok (o, s') ∧ runs step is s' = .ok (os', s'') ∧ os = o :: os' := by
  simp only [runs] at h
  obtain ⟨⟨o, s'⟩, h1, h2⟩ := bind_eq_ok.mp h
  obtain ⟨⟨os', t⟩, h3, h4⟩ := bind_eq_ok.mp h2
  cases h4
  exact ⟨o, s', os', h1, h3, rfl⟩

/-- A run over two lists is a run over the first and then over the second. -/
theorem runs_append {step : ι → σ → Run (ο × σ)} {is js : List ι} {s s' : σ} {os : List ο}
    (h : runs step is s = .ok (os, s')) :
    runs step (is ++ js) s = (runs step js s').map fun r => (os ++ r.1, r.2) := by
  induction is generalizing s os with
  | nil =>
    cases h
    simp only [List.nil_append]
    cases runs step js s' <;> rfl
  | cons i is ih =>
    obtain ⟨o, s₁, os', h1, h2, rfl⟩ := runs_cons_eq_ok h
    rw [List.cons_append, runs_cons_ok h1, ih h2]
    cases runs step js s' <;> rfl

/-- **Invariant rule.**  `P` may speak about the state before the step, its input and its
output. -/
theorem runs_inv {step : ι → σ → Run (ο × σ)} {Inv : σ → Prop} {P : ι → ο → Prop}
    (hstep : ∀ {i s o s'}, Inv s → step i s = .ok (o, s') → P i o ∧ Inv s')
    {is : List ι} {s s' : σ} {os : List ο} (hs : Inv s) (h : runs step is s = .ok (os, s')) :
    List.Forall₂ P is os ∧ Inv s' := by
  induction is generalizing s os with
  | nil =>
    cases h
    exact ⟨.nil, hs⟩
  | cons i is ih =>
    obtain ⟨o, s₁, os', h1, h2, rfl⟩ := runs_cons_eq_ok h
    obtain ⟨hP, hI⟩ := hstep hs h1
    obtain ⟨hPs, hI'⟩ := ih hI h2
    exact ⟨.cons hP hPs, hI'⟩

/-- **Progress rule.**  Where no step stops from a state with the invariant, no run does. -/
theorem runs_progress {step : ι → σ → Run (ο × σ)} {Inv : σ → Prop}
    (hstep : ∀ {i s}, Inv s → ∃ o s', step i s = .ok (o, s') ∧ Inv s') (is : List ι) {s : σ}
    (hs : Inv s) : ∃ os s', runs step is s = .ok (os, s') ∧ Inv s' := by
  induction is generalizing s with
  | nil => exact ⟨[], s, rfl, hs⟩
  | cons i is ih =>
    obtain ⟨o, s₁, h1, hs₁⟩ := hstep hs
    obtain ⟨os, s', h2, hs'⟩ := ih hs₁
    exact ⟨o :: os, s', by rw [runs_cons_ok h1, h2]; rfl, hs'⟩

/-- **Comparison rule.**  Two machines that agree on the states with an invariant have the same
runs from such a state. -/
theorem runs_congr {step step' : ι → σ → Run (ο × σ)} {Inv : σ → Prop}
    (hstep : ∀ {i s}, Inv s → step i s = step' i s)
    (hinv : ∀ {i s o s'}, Inv s → step' i s = .ok (o, s') → Inv s') (is : List ι) {s : σ}
    (hs : Inv s) : runs step is s = runs step' is s := by
  induction is generalizing s with
  | nil => rfl
  | cons i is ih =>
    rw [runs, runs, hstep hs]
    exact bind_ok_congr fun r hr => by simp only [ih (hinv hs hr)]

/-- **Cost rule.**  Where every admissible step ends and raises `cost` by `b` at most, a run of `n`
steps ends and raises it by `n * b`. -/
theorem runs_cost {step : ι → σ → Run (ο × σ)} {Inv : σ → Prop} {Ok : ι → Prop} (cost : σ → Nat)
    {b : Nat} (hstep : ∀ {i s}, Ok i → Inv s →
      ∃ o s', step i s = .ok (o, s') ∧ Inv s' ∧ cost s' ≤ cost s + b)
    (is : List ι) {s : σ} (his : ∀ i ∈ is, Ok i) (hs : Inv s) :
    ∃ os s', runs step is s = .ok (os, s') ∧ Inv s' ∧ cost s' ≤ cost s + is.length * b := by
  induction is generalizing s with
  | nil => exact ⟨[], s, rfl, hs, Nat.le_add_right _ _⟩
  | cons i is ih =>
    obtain ⟨o, s₁, h1, hs₁, hcost⟩ := hstep (his i List.mem_cons_self) hs
    obtain ⟨os, s', h2, hs', hrest⟩ := ih (fun j hj => his j (List.mem_cons_of_mem i hj)) hs₁
    refine ⟨o :: os, s', by rw [runs_cons_ok h1, h2]; rfl, hs', ?_⟩
    rw [List.length_cons, Nat.succ_mul]
    omega

/-- **Waiting rule.**  Where every step is the one that is waited for or keeps the state waiting, and
those that count lower `count`, a run with so many of them reaches it, before so many have been
made. -/
theorem runs_reach {step : ι → σ → Run (ο × σ)} {Wait : σ → Prop} {Goal : ι → σ → ο → σ → Prop}
    (tick : ι → Bool) (count : σ → Nat) (hpos : ∀ {s}, Wait s → 0 < count s)
    (hstep : ∀ {i s}, Wait s → ∃ o s', step i s = .ok (o, s') ∧
      (Goal i s o s' ∨ Wait s' ∧ count s' + (if tick i then 1 else 0) ≤ count s))
    {is : List ι} {s : σ} (hs : Wait s) (hmany : count s ≤ is.countP tick) :
    ∃ pre i post os s₁ o s₂, is = pre ++ i :: post ∧ pre.countP tick < count s ∧
      runs step pre s = .ok (os, s₁) ∧ step i s₁ = .ok (o, s₂) ∧ Goal i s₁ o s₂ := by
  induction is generalizing s with
  | nil =>
    have h0 := hpos hs
    rw [List.countP_nil] at hmany
    omega
  | cons i is ih =>
    obtain ⟨o, s', h1, hgoal | ⟨hs', hcount⟩⟩ := hstep (i := i) hs
    · exact ⟨[], i, is, [], s, o, s', rfl, hpos hs, rfl, h1, hgoal⟩
    · rw [List.countP_cons] at hmany
      obtain ⟨pre, j, post, os, s₁, o', s₂, rfl, hfew, h2, h3, hgoal⟩ := ih hs' (by omega)
      refine ⟨i :: pre, j, post, o :: os, s₁, o', s₂, rfl, ?_, ?_, h3, hgoal⟩
      · rw [List.countP_cons]
        omega
      · rw [runs_cons_ok h1, h2]
        rfl

/-- What every step hands back from its result to its start is handed back by a run. -/
theorem runs_back {step : ι → σ → Run (ο × σ)} {C : σ → Prop}
    (hback : ∀ {i s o s'}, step i s = .ok (o, s') → C s' → C s)
    {is : List ι} {s s' : σ} {os : List ο} (h : runs step is s = .ok (os, s')) (hC : C s') : C s := by
  induction is generalizing s os with
  | nil =>
    cases h
    exact hC
  | cons i is ih =>
    obtain ⟨o, s₁, os', h1, h2, rfl⟩ := runs_cons_eq_ok h
    exact hback h1 (ih h2)

/-- **Invariant rule with a condition on the last state**, of those that a run hands back: every
step may use that it holds of its result. -/
theorem runs_inv_of_last {step : ι → σ → Run (ο × σ)} {Ok : ι → Prop} {Inv C : σ → Prop}
    {P : ο → Prop} {is : List ι} {s s' : σ} {os : List ο} (h : runs step is s = .ok (os, s'))
    (hback : ∀ {i s o s'}, step i s = .ok (o, s') → C s' → C s)
    (hstep : ∀ {i s o s'}, Ok i → Inv s → C s' → step i s = .ok (o, s') → P o ∧ Inv s')
    (his : ∀ i ∈ is, Ok i) (hs : Inv s) (hC : C s') : (∀ o ∈ os, P o) ∧ Inv s' := by
  induction is generalizing s os with
  | nil =>
    cases h
    exact ⟨fun o ho => absurd ho List.not_mem_nil, hs⟩
  | cons i is ih =>
    obtain ⟨o, s₁, os', h1, h2, rfl⟩ := runs_cons_eq_ok h
    obtain ⟨hP, hI⟩ := hstep (his i List.mem_cons_self) hs (runs_back hback h2 hC) h1
    obtain ⟨hPs, hI'⟩ := ih h2 (fun j hj => his j (List.mem_cons_of_mem i hj)) hI
    refine ⟨fun o' ho' => ?_, hI'⟩
    rcases List.mem_cons.mp ho' with rfl | ho'
    · exact hP
    · exact hPs o' ho'

/-- **Refinement rule.**  If from related states every admissible step of the machine gives the
output of the specification and related states, so does every run of admissible steps. -/
theorem runs_of_simulation {step : ι → σ → Run (ο × σ)} {spec : ι → τ → ο × τ}
    {R : σ → τ → Prop} {Ok : ι → Prop}
    (hstep : ∀ {i s t}, Ok i → R s t → ∃ s', step i s = .ok ((spec i t).1, s') ∧ R s' (spec i t).2)
    {is : List ι} {s : σ} {t : τ} (his : ∀ i ∈ is, Ok i) (hR : R s t) :
    ∃ s', runs step is s = .ok ((specRuns spec is t).1, s') ∧ R s' (specRuns spec is t).2 := by
  induction is generalizing s t with
  | nil => exact ⟨s, rfl, hR⟩
  | cons i is ih =>
    obtain ⟨s₁, h1, hR₁⟩ := hstep (his i (by simp)) hR
    obtain ⟨s', h2, hR'⟩ := ih (fun j hj => his j (by simp [hj])) hR₁
    refine ⟨s', ?_, hR'⟩
    rw [runs_cons_ok h1, h2]
    rfl

theorem specRuns_append (spec : ι → τ → ο × τ) (is js : List ι) (t : τ) :
    specRuns spec (is ++ js) t =
      ((specRuns spec is t).1 ++ (specRuns spec js (specRuns spec is t).2).1,
        (specRuns spec js (specRuns spec is t).2).2) := by
  induction is generalizing t with
  | nil => rfl
  | cons i is ih => simp only [List.cons_append, specRuns, ih]

/-- **Translation rule.**  A machine that does what another one does, with other outputs. -/
theorem specRuns_map {ο' : Type} {spec : ι → τ → ο × τ} {spec' : ι → τ → ο' × τ} {f : ο → ο'}
    {is : List ι} (h : ∀ i ∈ is, ∀ t, spec' i t = (f (spec i t).1, (spec i t).2)) (t : τ) :
    specRuns spec' is t = ((specRuns spec is t).1.map f, (specRuns spec is t).2) := by
  induction is generalizing t with
  | nil => rfl
  | cons i is ih =>
    simp only [specRuns, h i List.mem_cons_self t, ih fun j hj => h j (List.mem_cons_of_mem i hj),
      List.map_cons]

/-- The outputs for the inputs with `p`. -/
def outputsFor (p : ι → Bool) (is : List ι) (os : List ο) : List ο :=
  ((is.zip os).filter fun io => p io.1).map Prod.snd

theorem outputsFor_cons (p : ι → Bool) (i : ι) (is : List ι) (o : ο) (os : List ο) :
    outputsFor p (i :: is) (o :: os) =
      if p i then o :: outputsFor p is os else outputsFor p is os := by
  cases h : p i <;> simp [outputsFor, h]

theorem outputsFor_self {p : ι → Bool} {is : List ι} {os : List ο} (h : ∀ i ∈ is, p i = true)
    (hlen : os.length ≤ is.length) : outputsFor p is os = os := by
  have hfilter : ((is.zip os).filter fun io => p io.1) = is.zip os :=
    List.filter_eq_self.mpr fun io hio => h io.1 (List.of_mem_zip hio).1
  rw [outputsFor, hfilter, List.map_snd_zip hlen]

theorem length_specRuns (spec : ι → τ → ο × τ) (is : List ι) (t : τ) :
    (specRuns spec is t).1.length = is.length := by
  induction is generalizing t with
  | nil => rfl
  | cons i is ih => exact congrArg (· + 1) (ih _)

/-- **Projection rule.**  In a view of the state that inputs without `p` leave alone, and in which
the others act as on a machine of its own, a run is the run of this machine over these. -/
theorem specRuns_project {spec : ι → σ → ο × σ} {own : ι → τ → ο × τ} {view : σ → τ → Prop}
    {p : ι → Bool} (hidden : ∀ {i s t}, p i = false → view s t → view (spec i s).2 t)
    (seen : ∀ {i s t}, p i = true → view s t →
      (spec i s).1 = (own i t).1 ∧ view (spec i s).2 (own i t).2)
    (is : List ι) {s : σ} {t : τ} (h : view s t) :
    outputsFor p is (specRuns spec is s).1 = (specRuns own (is.filter p) t).1 ∧
      view (specRuns spec is s).2 (specRuns own (is.filter p) t).2 := by
  induction is generalizing s t with
  | nil => exact ⟨rfl, h⟩
  | cons i is ih =>
    cases hi : p i with
    | false =>
      rw [List.filter_cons_of_neg (by simp [hi])]
      simp only [specRuns, outputsFor_cons, hi, Bool.false_eq_true, if_false]
      exact ih (hidden hi h)
    | true =>
      obtain ⟨ho, hv⟩ := seen hi h
      rw [List.filter_cons_of_pos (by simp [hi])]
      simp only [specRuns, outputsFor_cons, hi, if_true, ho, (ih hv).1, true_and]
      exact (ih hv).2

end CSem
