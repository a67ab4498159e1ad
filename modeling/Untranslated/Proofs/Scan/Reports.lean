import Untranslated.Scan
import Untranslated.Proofs.Locate.Independence
import Untranslated.Proofs.Walk

/-!
# Scans candidate by candidate

A scan is one run of a resolver, yet each candidate answers for itself.

* `Scan.labelled` is the run of `Scan.groups` that keeps the candidate of each group.
* `Scan.report` is what one candidate gives on a resolver of its own, and `labelled_candidates` says
  that a run over the candidates of a document comes to the same as asking for each one alone.
* `Scan.sorted` orders the groups. Sorting is stable, so leaving groups out before or after it
  makes no difference (`filter_sorted`).
-/

namespace Untranslated

/-! ## Blank values -/

/-- What is left without template expressions was there before. -/
theorem Mask.strip_subset (d : Delimiters) (s : Text) : strip d s ⊆ s := by
  fun_induction strip d s with
  | case1 => exact List.Subset.refl _
  | case2 s e _ _ ih =>
    exact List.append_subset.mpr ⟨List.take_subset _ _, List.Subset.trans ih (List.drop_subset _ _)⟩
  | case3 => exact List.Subset.refl _

/-- A value that shows nothing breaks no rule. -/
theorem Candidate.classify_eq_none {c : Candidate} (h : Text.isBlank c.value = true) (mask : Mask) :
    c.classify mask = none := by
  have hsubset : mask.stripExpressions c.value ⊆ c.value := by
    unfold Mask.stripExpressions
    split
    · exact List.Subset.refl _
    · exact Mask.strip_subset _ _
  have hblank : Text.isBlank (mask.stripExpressions c.value) = true :=
    List.all_eq_true.mpr fun x hx => List.all_eq_true.mp h x (hsubset hx)
  rw [classify, if_pos hblank]

namespace Scan

open Resolver (Source State Reached)

variable {src : Source} {lines : Lines} {d : Document}

/-- A candidate that breaks a rule shows something. -/
theorem shown_of_classify {c : Candidate} {rule : Rule} {mask : Mask}
    (h : c.classify mask = some rule) : Text.isBlank c.value = false := by
  refine Bool.eq_false_iff.mpr fun hblank => ?_
  rw [Candidate.classify_eq_none hblank] at h
  cases h

/-! ## Groups with their candidates -/

/-- The groups of findings of the candidates, each with its candidate. -/
def labelled (src : Source) (lines : Lines) :
    List Candidate → State → Except LocateError (List (Candidate × List Finding)) × State
  | [], st => (.ok [], st)
  | c :: cs, st =>
    match c.classify src.mask with
    | none => labelled src lines cs st
    | some rule =>
      match Resolver.resolve src c st with
      | (.error e, st) => (.error e, st)
      | (.ok none, st) => labelled src lines cs st
      | (.ok (some e), st) =>
        let group := findings lines c.kind rule e
        match labelled src lines cs st with
        | (.error e, st) => (.error e, st)
        | (.ok more, st) => (.ok (if group.isEmpty then more else (c, group) :: more), st)

theorem groups_eq_labelled (src : Source) (lines : Lines) (cs : List Candidate) (st : State) :
    groups src lines cs st =
      ((labelled src lines cs st).1.map (List.map Prod.snd), (labelled src lines cs st).2) := by
  induction cs generalizing st with
  | nil => rfl
  | cons c cs ih =>
    simp only [groups, labelled]
    cases c.classify src.mask with
    | none => exact ih st
    | some rule =>
      simp only
      generalize Resolver.resolve src c st = answered
      obtain ⟨r, st'⟩ := answered
      match r with
      | .error e => rfl
      | .ok none => exact ih st'
      | .ok (some e) =>
        simp only
        rw [ih st']
        generalize labelled src lines cs st' = run
        obtain ⟨more, st''⟩ := run
        cases more with
        | error e => rfl
        | ok more =>
          simp only [Except.map]
          split <;> rfl

/-! ## One candidate at a time -/

/-- The findings of one candidate, asked for on a resolver of its own. -/
def report (src : Source) (lines : Lines) (d : Document) (c : Candidate) :
    Except LocateError (List Finding) :=
  match c.classify src.mask with
  | none => .ok []
  | some rule =>
    match (Resolver.resolve src c (State.start src d)).1 with
    | .error e => .error e
    | .ok none => .ok []
    | .ok (some e) => .ok (findings lines c.kind rule e)

/-- The groups of findings of the candidates, each asked for on a resolver of its own. -/
def reports (src : Source) (lines : Lines) (d : Document) :
    List Candidate → Except LocateError (List (Candidate × List Finding))
  | [] => .ok []
  | c :: cs => do
    let group ← report src lines d c
    let more ← reports src lines d cs
    return if group.isEmpty then more else (c, group) :: more

/-- A run in document order gives what each candidate gives alone. -/
theorem labelled_eq_reports {k : Nat} {st : State} (h : Reached src d k st) {cs : List Candidate}
    (hk : ∀ c ∈ cs, k ≤ c.node + 1) (hcs : cs.Pairwise fun c c' => c.node ≤ c'.node) :
    (labelled src lines cs st).1 = reports src lines d cs := by
  induction cs generalizing k st with
  | nil => rfl
  | cons c cs ih =>
    obtain ⟨hc, hrest⟩ := List.forall_mem_cons.mp hk
    obtain ⟨hfirst, hpairs⟩ := List.pairwise_cons.mp hcs
    simp only [labelled, reports, report]
    cases c.classify src.mask with
    | none =>
      simp only
      rw [ih h hrest hpairs]
      generalize reports src lines d cs = more
      cases more <;> rfl
    | some rule =>
      have hanswer := h.resolve hc
      have hnext : ∀ {r st'}, Resolver.resolve src c st = (.ok r, st') →
          (labelled src lines cs st').1 = reports src lines d cs := fun hresolve =>
        ih (h.next hc hresolve) (fun c' hc' => Nat.succ_le_succ (hfirst c' hc')) hpairs
      simp only
      rw [← hanswer]
      generalize Resolver.resolve src c st = answered at hnext
      obtain ⟨r, st'⟩ := answered
      match r with
      | .error e => rfl
      | .ok none =>
        simp only
        rw [hnext rfl]
        generalize reports src lines d cs = more
        cases more <;> rfl
      | .ok (some e) =>
        have hmore := hnext rfl
        simp only
        rw [← hmore]
        generalize labelled src lines cs st' = run
        obtain ⟨more, st''⟩ := run
        cases more <;> rfl

/-- The run of a scan gives what each candidate of the document gives alone. -/
theorem labelled_candidates (src : Source) (lines : Lines) (d : Document)
    (ignored wanted : List Text) :
    (labelled src lines (d.candidates ignored wanted) (State.start src d)).1 =
      reports src lines d (d.candidates ignored wanted) :=
  labelled_eq_reports (Reached.start src d) (fun _ _ => Nat.zero_le _)
    (d.pairwise_candidates ignored wanted)

theorem reports_cons {c : Candidate} {cs : List Candidate} {rs : List (Candidate × List Finding)}
    (h : reports src lines d (c :: cs) = .ok rs) :
    ∃ group more, report src lines d c = .ok group ∧ reports src lines d cs = .ok more ∧
      rs = if group.isEmpty then more else (c, group) :: more := by
  rw [reports] at h
  cases hgroup : report src lines d c with
  | error e => rw [hgroup] at h; cases h
  | ok group =>
    cases hmore : reports src lines d cs with
    | error e => rw [hgroup, hmore] at h; cases h
    | ok more =>
      rw [hgroup, hmore] at h
      cases h
      exact ⟨group, more, rfl, rfl, rfl⟩

/-- Leaving candidates out leaves out their groups. -/
theorem reports_filter {cs : List Candidate} {rs : List (Candidate × List Finding)}
    (h : reports src lines d cs = .ok rs) (p : Candidate → Bool) :
    reports src lines d (cs.filter p) = .ok (rs.filter fun r => p r.1) := by
  induction cs generalizing rs with
  | nil => cases h; rfl
  | cons c cs ih =>
    obtain ⟨group, more, hgroup, hmore, rfl⟩ := reports_cons h
    have := ih hmore
    by_cases hp : p c = true
    · rw [List.filter_cons_of_pos hp, reports, hgroup, this]
      split
      · rename_i hempty
        simp [Bind.bind, Except.bind, hempty, Pure.pure, Except.pure]
      · rename_i hempty
        simp [Bind.bind, Except.bind, hempty, Pure.pure, Except.pure, hp]
    · rw [List.filter_cons_of_neg hp, this]
      split
      · rfl
      · rw [List.filter_cons_of_neg (by simpa using hp)]

theorem mem_reports {cs : List Candidate} {rs : List (Candidate × List Finding)}
    (h : reports src lines d cs = .ok rs) {r : Candidate × List Finding} (hr : r ∈ rs) :
    r.1 ∈ cs ∧ report src lines d r.1 = .ok r.2 := by
  induction cs generalizing rs with
  | nil => cases h; cases hr
  | cons c cs ih =>
    obtain ⟨group, more, hgroup, hmore, rfl⟩ := reports_cons h
    have hrest : r ∈ more → r.1 ∈ c :: cs ∧ report src lines d r.1 = .ok r.2 := fun hr =>
      ⟨List.mem_cons_of_mem _ (ih hmore hr).1, (ih hmore hr).2⟩
    split at hr
    · exact hrest hr
    · rcases List.mem_cons.mp hr with rfl | hr
      · exact ⟨List.mem_cons_self, hgroup⟩
      · exact hrest hr

/-- In a run that returns, every candidate answers. -/
theorem report_of_mem {cs : List Candidate} {rs : List (Candidate × List Finding)}
    (h : reports src lines d cs = .ok rs) {c : Candidate} (hc : c ∈ cs) :
    ∃ group, report src lines d c = .ok group := by
  induction cs generalizing rs with
  | nil => cases hc
  | cons c' cs ih =>
    obtain ⟨group, more, hgroup, hmore, -⟩ := reports_cons h
    rcases List.mem_cons.mp hc with rfl | hc
    · exact ⟨group, hgroup⟩
    · exact ih hmore hc

/-- A run in which every candidate answers returns. -/
theorem reports_ok {cs : List Candidate}
    (h : ∀ c ∈ cs, ∃ group, report src lines d c = .ok group) :
    ∃ rs, reports src lines d cs = .ok rs := by
  induction cs with
  | nil => exact ⟨[], rfl⟩
  | cons c cs ih =>
    obtain ⟨⟨group, hgroup⟩, hrest⟩ := List.forall_mem_cons.mp h
    obtain ⟨rs, hrs⟩ := ih hrest
    exact ⟨_, by rw [reports, hgroup, hrs]; rfl⟩

/-! ## Source order -/

theorem groupLe_total (a b : List Finding) : (groupLe a b || groupLe b a) = true := by
  match a, b with
  | [], _ => rfl
  | _ :: _, [] => rfl
  | f :: _, g :: _ =>
    simp only [groupLe, Finding.le, Bool.or_eq_true, Bool.and_eq_true, decide_eq_true_eq, beq_iff_eq]
    omega

theorem groupLe_trans {a b c : List Finding} (hab : groupLe a b = true) (hbc : groupLe b c = true) :
    groupLe a c = true := by
  match a, b, c with
  | [], _, _ => rfl
  | _ :: _, [], _ => cases hab
  | _ :: _, _ :: _, [] => cases hbc
  | f :: _, g :: _, h :: _ =>
    simp only [groupLe, Finding.le, Bool.or_eq_true, Bool.and_eq_true, decide_eq_true_eq,
      beq_iff_eq] at hab hbc ⊢
    omega

theorem le_of_mergeSort_cons {α : Type} {le : α → α → Bool}
    (trans : ∀ a b c, le a b = true → le b c = true → le a c = true)
    (total : ∀ a b, (le a b || le b a) = true) {a : α} {l before after : List α}
    (h : (a :: l).mergeSort le = before ++ a :: after) : ∀ b ∈ after, le a b = true := by
  have hsorted := List.pairwise_mergeSort trans total (a :: l)
  rw [h] at hsorted
  exact (List.pairwise_cons.mp (List.pairwise_append.mp hsorted).2.1).1

/-- A list is cut in only one way into items that have a property and items that have it not. -/
theorem append_cut_unique {α : Type} {q : α → Bool} {u v u' v' : List α} (h : u ++ v = u' ++ v')
    (hu : ∀ b ∈ u, q b = true) (hu' : ∀ b ∈ u', q b = true) (hv : ∀ b ∈ v, q b = false)
    (hv' : ∀ b ∈ v', q b = false) : u = u' ∧ v = v' := by
  have hcut : ∀ {u v : List α}, (∀ b ∈ u, q b = true) → (∀ b ∈ v, q b = false) →
      (u ++ v).takeWhile q = u := by
    intro u v hu hv
    rw [List.takeWhile_append_of_pos hu]
    cases v with
    | nil => simp
    | cons b v => rw [List.takeWhile_cons_of_neg (by simp [hv b List.mem_cons_self]), List.append_nil]
  have heq : u = u' := by rw [← hcut hu hv, h, hcut hu' hv']
  subst heq
  exact ⟨rfl, List.append_cancel_left h⟩

/-- A stable sort of some of the items is that part of the sorted list. -/
theorem filter_mergeSort {α : Type} {le : α → α → Bool}
    (trans : ∀ a b c, le a b = true → le b c = true → le a c = true)
    (total : ∀ a b, (le a b || le b a) = true) (p : α → Bool) (l : List α) :
    (l.mergeSort le).filter p = (l.filter p).mergeSort le := by
  induction l with
  | nil => simp
  | cons a l ih =>
    obtain ⟨before, after, hsorted, hrest, hbefore⟩ := List.mergeSort_cons trans total a l
    rw [hrest, List.filter_append] at ih
    rw [hsorted, List.filter_append]
    by_cases hp : p a = true
    · rw [List.filter_cons_of_pos hp, List.filter_cons_of_pos hp]
      obtain ⟨before', after', hsorted', hrest', hbefore'⟩ :=
        List.mergeSort_cons trans total a (l.filter p)
      have hafter := le_of_mergeSort_cons trans total hsorted
      have hafter' := le_of_mergeSort_cons trans total hsorted'
      -- Both ways, `a` is put before the first item that is not smaller.
      obtain ⟨h, h'⟩ := append_cut_unique (ih.trans hrest')
        (fun b hb => hbefore b (List.mem_of_mem_filter hb)) hbefore'
        (fun b hb => by simp [hafter b (List.mem_of_mem_filter hb)])
        (fun b hb => by simp [hafter' b hb])
      rw [hsorted', h, h']
    · rw [List.filter_cons_of_neg hp, List.filter_cons_of_neg hp, ih]

/-- The groups in source order; groups that begin at the same place keep their order. -/
def sorted (rs : List (Candidate × List Finding)) : List (Candidate × List Finding) :=
  rs.mergeSort fun r r' => groupLe r.2 r'.2

/-- The records of groups in the order given. -/
def recordsOf (label : Text) (rs : List (Candidate × List Finding)) : List Record :=
  rs.flatMap fun r => r.2.map fun f => ⟨label, f⟩

theorem filter_sorted (p : Candidate × List Finding → Bool) (rs : List (Candidate × List Finding)) :
    (sorted rs).filter p = sorted (rs.filter p) := by
  refine filter_mergeSort (fun r r' r'' h h' => ?_) (fun r r' => groupLe_total r.2 r'.2) _ rs
  exact groupLe_trans h h'

theorem pairwise_sorted (rs : List (Candidate × List Finding)) :
    (sorted rs).Pairwise fun r r' => groupLe r.2 r'.2 = true := by
  refine List.pairwise_mergeSort (fun r r' r'' h h' => ?_) (fun r r' => groupLe_total r.2 r'.2) rs
  exact groupLe_trans h h'

theorem mem_sorted {rs : List (Candidate × List Finding)} {r : Candidate × List Finding} :
    r ∈ sorted rs ↔ r ∈ rs := (List.mergeSort_perm rs _).mem_iff

/-- What a text and options make a resolver work on. -/
def source (text : Text) (delimiters : Option Delimiters) : Source := ⟨text, Mask.build text delimiters⟩

/-- A scan reports what each candidate of the document gives alone, in source order. -/
theorem scan_eq (text label : Text) (options : Options) :
    (scan text label options).1 =
      match Document.parse [] text with
      | .error e => .error (.markup e)
      | .ok d =>
        match reports (source text options.delimiters) (Lines.of text) d
          (d.candidates options.ignoredTags options.attributes) with
        | .error e => .error (.locate e)
        | .ok rs => .ok (recordsOf label (sorted rs)) := by
  unfold scan
  cases Document.parse [] text with
  | error e => rfl
  | ok d =>
    simp only
    rw [groups_eq_labelled, ← labelled_candidates, ← source]
    generalize labelled _ _ _ _ = run
    obtain ⟨rs, st⟩ := run
    cases rs with
    | error e => rfl
    | ok rs =>
      simp only [Except.map]
      rw [← List.map_mergeSort (r := fun r r' => groupLe r.2 r'.2) fun _ _ _ _ => rfl]
      simp [recordsOf, sorted, List.flatMap_def, List.map_flatten, Function.comp_def]

theorem scan_ok {text label : Text} {options : Options} {records : List Record}
    (h : (scan text label options).1 = .ok records) :
    ∃ d rs, Document.parse [] text = .ok d ∧
      reports (source text options.delimiters) (Lines.of text) d
        (d.candidates options.ignoredTags options.attributes) = .ok rs ∧
      records = recordsOf label (sorted rs) := by
  rw [scan_eq] at h
  split at h
  · cases h
  · rename_i d hparse
    split at h
    · cases h
    · rename_i rs hreports
      cases h
      exact ⟨d, rs, hparse, hreports, rfl⟩

/-- What is computed from the document of a text tells that the text is read. -/
theorem parsed_of_map {α : Type} {text : Text} {f : Document → α} {a : α}
    (h : (Document.parse [] text).toOption.map f = some a) :
    ∃ d, Document.parse [] text = .ok d ∧ f d = a := by
  generalize Document.parse [] text = parsed at h
  cases parsed with
  | error e => cases h
  | ok d => exact ⟨d, rfl, Option.some.inj h⟩

/-- The groups that the candidates give are sorted and reported. -/
theorem scan_of_groups {text label : Text} {options : Options} {gs : List (List Finding)}
    (h : (Document.parse [] text).toOption.map (fun d =>
      (groups (source text options.delimiters) (Lines.of text)
        (d.candidates options.ignoredTags options.attributes)
        (State.start (source text options.delimiters) d)).1.toOption) = some (some gs)) :
    (scan text label options).1 = .ok ((gs.mergeSort groupLe).flatten.map fun f => ⟨label, f⟩) := by
  obtain ⟨d, hparse, hgroups⟩ := parsed_of_map h
  unfold scan
  rw [← source, hparse]
  simp only
  generalize groups _ _ _ _ = run at hgroups
  obtain ⟨found, st⟩ := run
  cases found with
  | error e => cases hgroups
  | ok found =>
    cases hgroups
    rfl

/-- Groups that are found in source order are reported as they are found. -/
theorem scan_of_pairwise {text label : Text} {options : Options} {gs : List (List Finding)}
    (h : (Document.parse [] text).toOption.map (fun d =>
      (groups (source text options.delimiters) (Lines.of text)
        (d.candidates options.ignoredTags options.attributes)
        (State.start (source text options.delimiters) d)).1.toOption) = some (some gs))
    (hgs : gs.Pairwise fun a b => groupLe a b = true) :
    (scan text label options).1 = .ok (gs.flatten.map fun f => ⟨label, f⟩) := by
  rw [scan_of_groups h, List.mergeSort_of_pairwise hgs]

end Scan

end Untranslated
