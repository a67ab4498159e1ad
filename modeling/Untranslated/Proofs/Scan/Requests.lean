import Mathlib.Data.List.Destutter
import Mathlib.Data.List.Sort
import Untranslated.Proofs.Locate.Failure
import Untranslated.Proofs.Scan.Decoded

/-!
# The requests of a scan

A scan asks its resolver for the candidates that break a rule, one after the other, until one request
fails. `Scan.requests` lists these requests.

* They are all that a scan can fail for once the markup is read (`Scan.labelled_error_iff`).
* Their candidates come in document order, and show something, so that the resolver is always underway
  to the next one (`Scan.requests_grounded`).

Hence the walk over the document and the resolver stay in step: no request runs out of nodes or passes its
own node, and one that fails has its cause in the source (`scan_in_step`).
-/

namespace Untranslated

namespace Resolver

/-- A request that ends as it should: its node is found, in a place of the right kind, or there is an
error, and an error has its cause in the source. -/
structure Call.Grounded (src : Source) (d : Document) (k : Call) : Prop where
  is_call : k = call src k.candidate k.before
  /-- The candidate is taken from a node of the document. -/
  taken : ∃ node, d.nodes[k.candidate.node]? = some node ∧ k.candidate.From node
  /-- Seeking the node neither passes it without a place nor runs out of nodes. -/
  sought : (seekEnding src k.candidate k.before).answer? = some (seek src k.candidate k.before).1
  suits : ∀ l, (seek src k.candidate k.before).1 = .ok l → l.Suits k.candidate.kind
  cause : ∀ e, k.result = .error e → Cause src d k.candidate e

end Resolver

namespace Scan

open Resolver (Source State Call Underway)

variable {src : Source} {d : Document}

/-- The requests of a run over candidates: one for each that breaks a rule, up to the first that
fails. -/
def requests (src : Source) : List Candidate → State → List Call
  | [], _ => []
  | c :: cs, st =>
    match c.classify src.mask with
    | none => requests src cs st
    | some _ =>
      match Resolver.resolve src c st with
      | (.error _, _) => [Resolver.call src c st]
      | (.ok _, st') => Resolver.call src c st :: requests src cs st'

/-- A run fails with the error of a request, and whenever a request fails. -/
theorem labelled_error_iff {lines : Lines} {cs : List Candidate} {st : State} {e : LocateError} :
    (labelled src lines cs st).1 = .error e ↔ ∃ k ∈ requests src cs st, k.result = .error e := by
  induction cs generalizing st with
  | nil => simp [labelled, requests]
  | cons c cs ih =>
    simp only [labelled, requests]
    cases c.classify src.mask with
    | none => exact ih
    | some rule =>
      have hresult : (Resolver.call src c st).result = (Resolver.resolve src c st).1 := rfl
      simp only
      generalize Resolver.resolve src c st = answered at hresult ⊢
      obtain ⟨r, st'⟩ := answered
      match r with
      | .error e' => simp [hresult]
      | .ok none => simp [hresult, ih]
      | .ok (some e') =>
        simp only [List.mem_cons, exists_eq_or_imp, hresult, ← ih, reduceCtorEq, false_or]
        generalize labelled src lines cs st' = run
        obtain ⟨more, st''⟩ := run
        cases more <;> simp

/-- Requests are made for the candidates that break a rule, in their order, and for all of them unless
one fails. -/
theorem requests_prefix (src : Source) (cs : List Candidate) (st : State) :
    (requests src cs st).map Call.candidate <+: accepted src cs := by
  induction cs generalizing st with
  | nil => exact List.prefix_rfl
  | cons c cs ih =>
    simp only [requests, accepted, List.filter_cons]
    cases c.classify src.mask with
    | none => exact ih st
    | some rule =>
      rw [Option.isSome_some, if_pos rfl]
      simp only
      split
      · exact List.cons_prefix_cons.mpr ⟨rfl, List.nil_prefix⟩
      · exact List.cons_prefix_cons.mpr ⟨rfl, ih _⟩

/-- Every request for candidates that come in document order ends as it should. -/
theorem requests_grounded {k : Nat} {st : State} (h : Underway src d k st) {cs : List Candidate}
    (hk : ∀ c ∈ cs, k ≤ c.node + 1) (hcs : cs.Pairwise fun c c' => c.node ≤ c'.node)
    (htaken : ∀ c ∈ cs, ∃ node, d.nodes[c.node]? = some node ∧ c.From node) :
    ∀ r ∈ requests src cs st, r.Grounded src d := by
  induction cs generalizing k st with
  | nil => simp [requests]
  | cons c cs ih =>
    obtain ⟨hc, hrest⟩ := List.forall_mem_cons.mp hk
    obtain ⟨hfirst, hpairs⟩ := List.pairwise_cons.mp hcs
    obtain ⟨⟨node, hnode, hfrom⟩, hothers⟩ := List.forall_mem_cons.mp htaken
    rw [requests]
    cases hrule : c.classify src.mask with
    | none => exact ih h hrest hpairs hothers
    | some rule =>
      have hblank := shown_of_classify hrule
      have hgrounded : (Resolver.call src c st).Grounded src d := {
        is_call := rfl
        taken := ⟨node, hnode, hfrom⟩
        sought := h.sought hc hnode hfrom hblank
        suits := fun l hl => h.suits hnode hfrom (Prod.ext hl rfl)
        cause := fun e he => h.cause hc hnode hfrom hblank he }
      simp only
      split
      · simpa using hgrounded
      · rename_i r st' hresolve
        have hnext := h.next hc hresolve
        exact List.forall_mem_cons.mpr
          ⟨hgrounded, ih hnext (fun c' hc' => Nat.succ_le_succ (hfirst c' hc')) hpairs hothers⟩

/-- Places that only go forward, repeats dropped, are a subsequence of all places. -/
theorem destutter_sublist_range {places : List Nat} {n : Nat} (hplaces : places.Pairwise (· ≤ ·))
    (hlt : ∀ i ∈ places, i < n) : (places.destutter (· ≠ ·)).Sublist (List.range n) := by
  have hsub := List.destutter_sublist (· ≠ ·) places
  have hsorted : (places.destutter (· ≠ ·)).Pairwise (· < ·) := by
    have hle := (hplaces.sublist hsub).isChain
    have hne := List.isChain_destutter (· ≠ ·) places
    rw [List.isChain_iff_getElem] at hle hne
    refine List.isChain_iff_pairwise.mp (List.isChain_iff_getElem.mpr fun i hi => ?_)
    exact Nat.lt_of_le_of_ne (hle i hi) (hne i hi)
  have hsubset : places.destutter (· ≠ ·) ⊆ List.range n := fun i hi =>
    List.mem_range.mpr (hlt i (hsub.subset hi))
  exact List.sublist_of_subperm_of_pairwise (List.subperm_of_subset hsorted.nodup hsubset) hsorted
    List.pairwise_lt_range

/-- The requests of a scan of a text that is read as the document. -/
def requestsOf (text : Text) (options : Options) (d : Document) : List Call :=
  requests (source text options.delimiters) (d.candidates options.ignoredTags options.attributes)
    (State.start (source text options.delimiters) d)

/-- Once the markup is read, a scan fails with the error of a request, and whenever one fails. -/
theorem scan_error_iff {text label : Text} {options : Options} (hparse : Document.parse [] text = .ok d)
    {e : ScanError} :
    (scan text label options).1 = .error e ↔
      ∃ k ∈ requestsOf text options d, ∃ e', k.result = .error e' ∧ e = .locate e' := by
  have hiff : ∀ e', reports (source text options.delimiters) (Lines.of text) d
      (d.candidates options.ignoredTags options.attributes) = .error e' ↔
        ∃ k ∈ requestsOf text options d, k.result = .error e' := fun e' => by
    rw [← labelled_candidates]
    exact labelled_error_iff
  rw [scan_eq, hparse]
  simp only
  generalize reports _ _ d _ = reported at hiff ⊢
  cases reported with
  | error e₀ =>
    obtain ⟨k, hk, hresult⟩ := (hiff e₀).mp rfl
    constructor
    · intro h
      cases h
      exact ⟨k, hk, e₀, hresult, rfl⟩
    · rintro ⟨k', hk', e', hresult', rfl⟩
      rw [Except.error.inj ((hiff e').mpr ⟨k', hk', hresult'⟩)]
  | ok rs =>
    refine ⟨(by intro h; cases h), ?_⟩
    rintro ⟨k, hk, e', hresult, -⟩
    cases (hiff e').mpr ⟨k, hk, hresult⟩

/-- The walk over the document and the resolver stay in step during a scan. -/
structure InStep (text label : Text) (options : Options) (d : Document) : Prop where
  /-- A scan fails with the error of a request, and whenever one fails. -/
  fails_iff : ∀ e, (scan text label options).1 = .error e ↔
    ∃ k ∈ requestsOf text options d, ∃ e', k.result = .error e' ∧ e = .locate e'
  /-- Requests are for the candidates that break a rule, up to the first that fails. -/
  asked : (requestsOf text options d).map Call.candidate <+:
    accepted (source text options.delimiters) (d.candidates options.ignoredTags options.attributes)
  /-- They come in document order, where only attributes share a node. -/
  ordered : ((requestsOf text options d).map Call.candidate).Pairwise Candidate.Precedes
  /-- But for adjacent repeats, their nodes are a subsequence of all nodes. -/
  subsequence : (((requestsOf text options d).map fun k => k.candidate.node).destutter
    (· ≠ ·)).Sublist (List.range d.nodes.length)
  grounded : ∀ k ∈ requestsOf text options d, k.Grounded (source text options.delimiters) d

end Scan

/-- Once the markup is read, the resolver stays in step with the walk: no request of a scan runs out of
nodes, passes its own node, or finds it in a place of the wrong kind. One that fails does so because an
opening tag, the value of an attribute or a text that shows something is not written where it is looked
for, or because a reference there cannot be read. -/
theorem scan_in_step {text : Text} {d : Document} (hparse : Document.parse [] text = .ok d)
    (label : Text) (options : Options) : Scan.InStep text label options d := by
  have hsub : ((Scan.requestsOf text options d).map Resolver.Call.candidate).Sublist
      (d.candidates options.ignoredTags options.attributes) :=
    (Scan.requests_prefix ..).sublist.trans List.filter_sublist
  have hprecedes := (d.precedes_candidates options.ignoredTags options.attributes).sublist hsub
  have hgrounded : ∀ k ∈ Scan.requestsOf text options d,
      k.Grounded (Scan.source text options.delimiters) d :=
    Scan.requests_grounded (Resolver.Underway.start _ d) (fun _ _ => Nat.zero_le _)
      (d.pairwise_candidates ..) fun _ => Document.mem_candidates
  refine ⟨fun e => Scan.scan_error_iff hparse, Scan.requests_prefix .., hprecedes, ?_, hgrounded⟩
  apply Scan.destutter_sublist_range
  · have hnodes := hprecedes.imp fun h => h.le
    rw [List.pairwise_map] at hnodes ⊢
    exact hnodes
  · intro i hi
    obtain ⟨k, hk, rfl⟩ := List.mem_map.mp hi
    obtain ⟨node, hnode, -⟩ := (hgrounded k hk).taken
    exact (List.getElem?_eq_some_iff.mp hnode).1

/-- Two attributes of one element, an ignored element, and a text that is not found, so that the one
behind it is not asked for. -/
theorem scan_in_step_unwritten :
    ∃ (text : Text) (options : Options) (d : Document),
      text = "<p title='a' alt='b'>c<i>x</i><b>&#65;</b>d</p>".toList ∧
      options = ⟨["title".toList, "alt".toList], none, ["i".toList]⟩ ∧
      Document.parse [] text = .ok d ∧
      (Scan.requestsOf text options d).map (fun k => k.candidate.node) = [0, 0, 1, 5] ∧
      (Scan.requestsOf text options d).map (fun k => k.result.toOption.isSome) =
        [true, true, true, false] ∧
      Scan.InStep text [] options d := by
  let text := "<p title='a' alt='b'>c<i>x</i><b>&#65;</b>d</p>".toList
  let options : Options := ⟨["title".toList, "alt".toList], none, ["i".toList]⟩
  have hrun : (Document.parse [] text).toOption.map (fun d =>
      ((Scan.requestsOf text options d).map (fun k => k.candidate.node),
        (Scan.requestsOf text options d).map (fun k => k.result.toOption.isSome))) =
      some ([0, 0, 1, 5], [true, true, true, false]) := by
    decide +kernel
  obtain ⟨d, hparse, hrequests⟩ := Scan.parsed_of_map hrun
  obtain ⟨hnodes, hresults⟩ := Prod.mk.inj hrequests
  exact ⟨text, options, d, rfl, rfl, hparse, hnodes, hresults, scan_in_step hparse [] options⟩

end Untranslated
