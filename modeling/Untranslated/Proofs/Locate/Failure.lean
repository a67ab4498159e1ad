import Untranslated.Proofs.Locate.Independence
import Untranslated.Proofs.Walk

/-!
# How requests fail

Seeking a node passes the nodes before it. It could end in four ways, which `seekEnding` tells apart: the
node is found, a node on the way or the node itself is an error, the node is passed without a place, or the
nodes run out. The last two cannot happen to a node that is still ahead and shows something, as long as the
requests come in document order (`Underway.seekEnding`).

What is left to fail for is in the source (`Cause`): there is no opening tag, no attribute value or no text
where it is looked for, or a reference cannot be read (`Underway.cause`).
-/

namespace Untranslated

/-- The place is one for candidates of the kind: a tag for an attribute, a range for a text. -/
def Located.Suits : Located → CandidateKind → Prop
  | .tag _, kind => kind = .attribute
  | .text _, kind => kind = .text

namespace Resolver

variable {src : Source} {d : Document}

/-! ## Endings -/

/-- How seeking a node ends. -/
inductive Ending where
  /-- The node is found, now or by the request before. -/
  | found (l : Located)
  /-- Locating the node, or one before it, is an error. -/
  | failed (e : LocateError)
  /-- The node itself is passed, and it stands nowhere. -/
  | unplaced
  /-- No node is left. -/
  | exhausted
  deriving DecidableEq

/-- How passing the nodes up to the target ends. -/
def advanceEnding (src : Source) (target : Nat) : List (Nat × Node) → State → Ending
  | [], _ => .exhausted
  | (i, node) :: rest, st =>
    match locate src (i == target) { st with remaining := rest } node with
    | (.error e, _) => .failed e
    | (.ok place, st) =>
      match i == target, place with
      | true, some l => .found l
      | true, none => .unplaced
      | false, _ => advanceEnding src target rest { st with last := some (i, place) }

/-- How seeking the node of a candidate ends. -/
def seekEnding (src : Source) (c : Candidate) (st : State) : Ending :=
  match st.last with
  | some (i, some l) =>
    if i = c.node then .found l else advanceEnding src c.node st.remaining st
  | _ => advanceEnding src c.node st.remaining st

/-- The answer of a search that ends in one of the first two ways. -/
def Ending.answer? : Ending → Option (Except LocateError Located)
  | .found l => some (.ok l)
  | .failed e => some (.error e)
  | .unplaced | .exhausted => none

theorem advance_of_ending {target : Nat} (missing : Nat → LocateError) {nodes : List (Nat × Node)}
    {st : State} {r : Except LocateError Located}
    (h : (advanceEnding src target nodes st).answer? = some r) :
    (advance src target missing nodes st).1 = r := by
  induction nodes generalizing st with
  | nil => cases h
  | cons n rest ih =>
    obtain ⟨i, node⟩ := n
    rw [advance_cons]
    rw [advanceEnding] at h
    generalize locate src (i == target) { st with remaining := rest } node = located at h ⊢
    obtain ⟨place, st'⟩ := located
    cases place with
    | error e => exact Option.some.inj h
    | ok place =>
      generalize (i == target) = strict at h ⊢
      match strict, place with
      | true, some l => exact Option.some.inj h
      | true, none => cases h
      | false, place => exact ih h

/-- Seeking answers what its ending says. -/
theorem seek_of_ending {c : Candidate} {st : State} {r : Except LocateError Located}
    (h : (seekEnding src c st).answer? = some r) : (seek src c st).1 = r := by
  unfold seekEnding at h
  unfold seek
  generalize st.last = last at h ⊢
  match last with
  | none => exact advance_of_ending _ h
  | some (i, none) => exact advance_of_ending _ h
  | some (i, some l) =>
    simp only at h ⊢
    split at h
    · rename_i hi
      rw [if_pos hi]
      exact Option.some.inj h
    · rename_i hi
      rw [if_neg hi]
      exact advance_of_ending _ h

/-! ## Causes -/

/-- The offset lies in a range that is hidden when the source is read from `p` on. -/
def HiddenFrom (text : Text) (p o : Nat) : Prop :=
  ((Hidden.spans text p).any fun s => s.contains o) = true

/-- What a request for a candidate can fail for. -/
inductive Cause (src : Source) (d : Document) (c : Candidate) : LocateError → Prop
  /-- At or behind the cursor there is no opening tag of the element. -/
  | tag {name : Text} {attributes : Attributes} {children : List Node} {cursor : Nat}
      (hnode : d.nodes[c.node]? = some (.element name attributes children))
      (hnone : ∀ o ∈ tagStarts name cursor 0 (src.text.drop cursor), HiddenFrom src.text cursor o) :
      Cause src d c (.notFound (['<'] ++ name ++ ['>']) cursor)
  /-- The opening tag shows no value for the attribute, and the value is not written in it. -/
  | value {node : Node} {t : OpenTag} {p : Nat} (hkind : c.kind = .attribute)
      (hnode : d.nodes[c.node]? = some node) (htag : Fits src node (.tag t))
      (hshown : ∀ a ∈ t.attribute? (c.attributeName.getD []), a.value.start = a.value.stop)
      (hp : p ≤ t.stop)
      (hnone : ∀ s ∈ (ValuePattern.ofValue c.value).findAll t.start 0
        (Text.slice src.text t.start t.stop), HiddenFrom src.text p s.start) :
      Cause src d c (.notFound c.value t.start)
  /-- The text shows something, but it is not written at the cursor, nor behind the gap there, nor
  later on. -/
  | text {cursor : Nat} (hkind : c.kind = .text) (hblank : Text.isBlank c.value = false)
      (hhere : ¬ c.value <+: src.text.drop cursor)
      (hgap : ¬ c.value <+: src.text.drop (cursor + Hidden.gapLength (src.text.drop cursor)))
      (hnone : ∀ s ∈ (ValuePattern.ofValue c.value).findAll cursor 0 (src.text.drop cursor),
        HiddenFrom src.text cursor s.start) :
      Cause src d c (.notFound c.value cursor)
  /-- A reference that had to be decoded cannot be read. -/
  | overlong (reference : OverlongReference) : Cause src d c (.overlong reference)
  /-- The evidence cannot be trimmed. -/
  | evidence (e : EvidenceError) : Cause src d c (.evidence e)

/-- Choosing among places fails only where one cannot be read. -/
theorem bestPlace_error {wanted : Text} {fallback : Option Span} {places : List Span} {st : State}
    {e : LocateError} (h : (bestPlace src wanted fallback places st).1 = .error e) :
    ∃ reference, e = .overlong reference := by
  induction places generalizing fallback st with
  | nil => cases h
  | cons p places ih =>
    simp only [bestPlace, isHidden_eq] at h
    split at h
    · exact ih h
    · split at h
      · cases h
        exact ⟨_, rfl⟩
      · cases h
      · exact ih h

/-- No place is chosen only where all are hidden. -/
theorem bestPlace_none {wanted : Text} {fallback : Option Span} {places : List Span} {st : State}
    (h : (bestPlace src wanted fallback places st).1 = .ok none) :
    fallback = none ∧ ∀ s ∈ places, st.hides src s.start = true := by
  induction places generalizing fallback st with
  | nil => exact ⟨Except.ok.inj h, by simp⟩
  | cons p places ih =>
    simp only [bestPlace, isHidden_eq] at h
    cases hhides : st.hides src p.start with
    | true =>
      rw [hhides] at h
      obtain ⟨hfallback, hplaces⟩ := ih h
      exact ⟨hfallback, List.forall_mem_cons.mpr ⟨hhides, by simpa using hplaces⟩⟩
    | false =>
      rw [hhides] at h
      simp only at h
      split at h
      · cases h
      · cases h
      · obtain ⟨hfallback, -⟩ := ih h
        cases fallback <;> cases hfallback

theorem search_error {value : Text} {start stop : Nat} {st : State} {e : LocateError}
    (h : (search src value start stop st).1 = .error e) : ∃ reference, e = .overlong reference := by
  unfold search at h
  rw [searchFrom_eq_bestPlace] at h
  exact bestPlace_error h

theorem search_none {value : Text} {start stop : Nat} {st : State}
    (h : (search src value start stop st).1 = .ok none) :
    ∀ s ∈ (ValuePattern.ofValue value).findAll start 0 ((src.text.take stop).drop start),
      st.hides src s.start = true := by
  unfold search at h
  rw [searchFrom_eq_bestPlace] at h
  exact (bestPlace_none h).2

/-- A node that need not be found fails only where the source cannot be read. -/
theorem locate_lenient_error {st : State} {node : Node} {e : LocateError}
    (h : (locate src false st node).1 = .error e) : ∃ reference, e = .overlong reference := by
  match node with
  | .element name attributes children =>
    obtain ⟨_, -, -, he⟩ := locateTag_eq src name attributes false st
    simp only [locate, he, tagResult] at h
    split at h
    · cases h
    · split at h
      · cases h
        exact ⟨_, rfl⟩
      · cases h
  | .leaf .text value =>
    obtain ⟨_, -, he⟩ := locateText_eq src value false st
    simp only [locate, he, textResult] at h
    split at h
    · cases h
    · split at h
      · cases h
      · split at h
        · rename_i hsearch
          cases h
          exact search_error hsearch
        · cases h
        · cases h
  | .leaf .comment _ | .leaf .doctype _ | .leaf .cdata _ | .leaf .declaration _
  | .leaf .instruction _ => cases h

/-- The node of a candidate that shows something is found when it has to be, or this is an error. -/
theorem locate_strict_some (src : Source) {c : Candidate} {node : Node} (hfrom : c.From node)
    (hblank : Text.isBlank c.value = false) (st : State) : (locate src true st node).1 ≠ .ok none := by
  intro h
  match node with
  | .element name attributes children =>
    obtain ⟨_, -, -, he⟩ := locateTag_eq src name attributes true st
    simp only [locate, he, tagResult] at h
    split at h
    · cases h
    · split at h <;> cases h
  | .leaf kind value =>
    obtain ⟨rfl, -, -, rfl⟩ := hfrom
    obtain ⟨_, -, he⟩ := locateText_eq src c.value true st
    simp only [locate, he, textResult, hblank] at h
    split at h
    · cases h
    · rw [if_neg Bool.false_ne_true] at h
      split at h
      · cases h
      · cases h
      · rw [if_pos trivial] at h
        cases h

/-- When the node of a candidate has to be found and is not, the source is the cause. -/
theorem locate_strict_cause {c : Candidate} {node : Node} (hnode : d.nodes[c.node]? = some node)
    (hfrom : c.From node) (hblank : Text.isBlank c.value = false) {st : State} (hsync : Synced src st)
    {e : LocateError} (h : (locate src true st node).1 = .error e) : Cause src d c e := by
  match node with
  | .element name attributes children =>
    obtain ⟨_, -, -, he⟩ := locateTag_eq src name attributes true st
    simp only [locate, he] at h
    cases hplace : tagPlace src name st with
    | none =>
      rw [hplace] at h
      cases h
      refine .tag hnode fun o ho => ?_
      have hhides := List.find?_eq_none.mp hplace o ho
      rw [Bool.not_eq_true', Bool.not_eq_false] at hhides
      rwa [hsync.hides (startsTag_of_mem_tagStarts src rfl o ho).1] at hhides
    | some o =>
      rw [hplace, tagResult] at h
      split at h
      · cases h
        exact .overlong _
      · cases h
  | .leaf kind value =>
    obtain ⟨rfl, hkind, -, rfl⟩ := hfrom
    obtain ⟨_, -, he⟩ := locateText_eq src c.value true st
    simp only [locate, he, textResult, hblank] at h
    split at h
    · cases h
    · rename_i hstarts
      split at h
      · cases h
      · split at h
        · rename_i hsearch
          cases h
          obtain ⟨reference, rfl⟩ := search_error hsearch
          exact .overlong reference
        · cases h
        · rename_i hsearch
          cases h
          have hhere : ¬ c.value <+: src.text.drop st.cursor := fun hhere => by
            rw [textStart, if_pos (Text.startsWith_iff.mpr hhere)] at hstarts
            exact hstarts (Text.startsWith_iff.mpr hhere)
          refine .text hkind hblank hhere (fun hgap => ?_) fun s hs => ?_
          · rw [textStart, if_neg (fun h => hhere (Text.startsWith_iff.mp h))] at hstarts
            exact hstarts (Text.startsWith_iff.mpr hgap)
          · have hhides := search_none hsearch s (by rwa [List.take_length])
            rwa [hsync.hides (ValuePattern.findAll_inside s hs).lo_le] at hhides

/-- An attribute whose tag is found fails only where its value is not written in the tag. -/
theorem locateAttribute_cause {c : Candidate} {node : Node} {t : OpenTag} {st : State}
    (hkind : c.kind = .attribute) (hnode : d.nodes[c.node]? = some node)
    (hfits : Fits src node (.tag t)) (hsync : Synced src st) (hcursor : st.cursor = t.stop)
    {e : LocateError} (h : (locateAttribute src c t st).1 = .error e) : Cause src d c e := by
  unfold locateAttribute at h
  simp only at h
  split at h
  · cases h
  · rename_i hfilter
    split at h
    · rename_i hsearch
      cases h
      obtain ⟨reference, rfl⟩ := search_error (congrArg Prod.fst hsearch)
      exact .overlong reference
    · cases h
    · rename_i hsearch
      cases h
      obtain ⟨p, hp, hhidden⟩ := hsync.refresh
      rw [State.refresh_cursor, hcursor] at hp
      refine .value hkind hnode hfits (fun a ha => ?_) hp fun s hs => ?_
      · rw [Option.filter_eq_none_iff] at hfilter
        simpa using hfilter a ha
      · have hhides := search_none (congrArg Prod.fst hsearch) s (by rw [List.drop_take]; exact hs)
        rwa [State.hides, hhidden] at hhides

/-! ## Requests in document order -/

/-- Nodes before a candidate's are passed, and then the node is found or is an error. -/
theorem advanceEnding_ahead {c : Candidate} {node : Node} (hnode : d.nodes[c.node]? = some node)
    (hfrom : c.From node) (hblank : Text.isBlank c.value = false)
    {before : List (Nat × Node)} (hbefore : ∀ n ∈ before, n.1 < c.node) (after : List (Nat × Node))
    {st : State} (hsync : Synced src st) (hle : st.cursor ≤ src.text.length) :
    (∃ l, advanceEnding src c.node (before ++ (c.node, node) :: after) st = .found l) ∨
      ∃ e, advanceEnding src c.node (before ++ (c.node, node) :: after) st = .failed e ∧
        Cause src d c e := by
  induction before generalizing st with
  | nil =>
    have hsome := locate_strict_some src hfrom hblank { st with remaining := after }
    have hcause : ∀ e, (locate src true { st with remaining := after } node).1 = .error e →
        Cause src d c e := fun e =>
      locate_strict_cause hnode hfrom hblank (show Synced src { st with remaining := after } from hsync)
    rw [List.nil_append, advanceEnding, beq_self_eq_true]
    generalize locate src true { st with remaining := after } node = located at hsome hcause ⊢
    obtain ⟨place, st'⟩ := located
    match place with
    | .error e => exact .inr ⟨e, rfl, hcause e rfl⟩
    | .ok none => exact absurd rfl hsome
    | .ok (some l) => exact .inl ⟨l, rfl⟩
  | cons n before ih =>
    obtain ⟨i, node'⟩ := n
    obtain ⟨hi, hbefore⟩ := List.forall_mem_cons.mp hbefore
    have hne : (i == c.node) = false := beq_eq_false_iff_ne.mpr (Nat.ne_of_lt hi)
    rw [List.cons_append, advanceEnding, hne]
    generalize before ++ (c.node, node) :: after = rest at ih ⊢
    have hlater : State.cursor { st with remaining := rest } ≤ src.text.length := hle
    have hnext := (show Synced src { st with remaining := rest } from hsync).locate hlater false node'
    have hcursor := (locate_cursor hlater false node').2
    have herror : ∀ e, (locate src false { st with remaining := rest } node').1 = .error e →
        ∃ reference, e = .overlong reference := fun _ => locate_lenient_error
    generalize locate src false { st with remaining := rest } node' = located at *
    obtain ⟨place, st'⟩ := located
    cases place with
    | error e =>
      obtain ⟨reference, rfl⟩ := herror e rfl
      exact .inr ⟨_, rfl, .overlong reference⟩
    | ok place => exact ih hbefore hnext hcursor

/-- What remains behind a found node is what stands behind it in the list. -/
theorem advance_remaining {target : Nat} {missing : Nat → LocateError} {nodes : List (Nat × Node)}
    {st st' : State} {l : Located} (h : advance src target missing nodes st = (.ok l, st')) :
    ∃ before node, nodes = before ++ (target, node) :: st'.remaining := by
  induction nodes generalizing st with
  | nil => cases h
  | cons n rest ih =>
    obtain ⟨i, node⟩ := n
    obtain ⟨asked, hlooked, hstate⟩ :=
      locate_state src (i == target) { st with remaining := rest } node
    rw [advance_cons] at h
    generalize locate src (i == target) { st with remaining := rest } node = located at h hstate
    obtain ⟨place, st₁⟩ := located
    simp only at h hstate
    cases place with
    | error e => cases h
    | ok place =>
      have hremaining : st₁.remaining = rest := by
        rw [hstate]
        cases place <;> exact hlooked.remaining
      simp only at h
      split at h
      · rename_i hi
        cases h
        exact ⟨[], node, by rw [beq_iff_eq.mp hi, ← hremaining]; rfl⟩
      · obtain ⟨before, node', hrest⟩ := ih h
        exact ⟨(i, node) :: before, node', by rw [hrest]; rfl⟩

end Resolver

namespace Document

variable {d : Document}

theorem getElem?_indexed (d : Document) (i : Nat) :
    d.indexed[i]? = d.nodes[i]?.map fun node => (i, node) := by
  simp only [indexed, List.getElem?_map, List.getElem?_zipIdx, Option.map_map, Nat.zero_add]
  rfl

/-- A node at which the document is cut tells its own place. -/
theorem drop_indexed_eq {k i : Nat} {node : Node} {before after : List (Nat × Node)}
    (h : d.indexed.drop k = before ++ (i, node) :: after) : after = d.indexed.drop (i + 1) := by
  have hget : d.indexed[k + before.length]? = some (i, node) := by
    rw [← List.getElem?_drop, h]
    simp
  have hplace : i = k + before.length := by
    rw [getElem?_indexed] at hget
    obtain ⟨_, -, heq⟩ := Option.map_eq_some_iff.mp hget
    exact (Prod.mk.inj heq).1.symm
  rw [hplace, Nat.add_assoc, ← List.drop_drop, h, ← List.drop_drop]
  simp

/-- From any place on, the document can be cut at a later node. -/
theorem exists_drop_indexed {k i : Nat} {node : Node} (hk : k ≤ i) (hnode : d.nodes[i]? = some node) :
    ∃ before after, d.indexed.drop k = before ++ (i, node) :: after ∧ ∀ n ∈ before, n.1 < i := by
  have hmem : (i, node) ∈ d.indexed.drop k := by
    refine List.mem_of_getElem? (i := i - k) ?_
    rw [List.getElem?_drop, Nat.add_sub_cancel' hk, getElem?_indexed, hnode]
    rfl
  obtain ⟨before, after, hcut⟩ := List.append_of_mem hmem
  refine ⟨before, after, hcut, fun n hn => ?_⟩
  have hpairs := d.pairwise_indexed.sublist (List.drop_sublist k _)
  rw [hcut] at hpairs
  exact (List.pairwise_append.mp hpairs).2.2 n hn (i, node) List.mem_cons_self

end Document

namespace Resolver

variable {src : Source} {d : Document}

/-- The resolver has answered requests in document order, the last of them for the node before the
`k`-th: this node is known, and all later ones are still ahead. -/
structure Underway (src : Source) (d : Document) (k : Nat) (st : State) : Prop where
  trail : ∃ trail, Trail src d st trail
  synced : Synced src st
  remaining : st.remaining = d.indexed.drop k
  passed : ∀ i l, st.last = some (i, some l) → i < k
  known : ∀ i, i + 1 = k → ∃ l, st.last = some (i, some l)

theorem Underway.start (src : Source) (d : Document) : Underway src d 0 (State.start src d) where
  trail := ⟨[], Trail.start src d⟩
  synced := Synced.start src d
  remaining := rfl
  passed _ _ h := by cases h
  known _ h := by cases h

section Request

variable {k : Nat} {st : State} {c : Candidate} {node : Node}

/-- The node of a request is the one known already, or is sought among those that remain. -/
theorem Underway.cases (h : Underway src d k st) (hk : k ≤ c.node + 1) :
    (k = c.node + 1 ∧ ∃ l, st.last = some (c.node, some l)) ∨
      k ≤ c.node ∧ seek src c st = advance src c.node (missing c) (d.indexed.drop k) st ∧
        seekEnding src c st = advanceEnding src c.node (d.indexed.drop k) st := by
  rcases Nat.lt_or_eq_of_le hk with hlt | heq
  · refine .inr ⟨Nat.le_of_lt_succ hlt, ?_⟩
    have hne : ∀ i l, st.last = some (i, some l) → i ≠ c.node := fun i l hlast => by
      have := h.passed i l hlast
      omega
    rw [← h.remaining]
    unfold seek seekEnding
    match hlast : st.last with
    | none => exact ⟨rfl, rfl⟩
    | some (i, none) => exact ⟨rfl, rfl⟩
    | some (i, some l) => exact ⟨if_neg (hne i l hlast), if_neg (hne i l hlast)⟩
  · exact .inl ⟨heq, h.known c.node heq.symm⟩

/-- A node that is found suits the candidate that is taken from it. -/
theorem Underway.suits (h : Underway src d k st) (hnode : d.nodes[c.node]? = some node)
    (hfrom : c.From node) {l : Located} {st' : State} (hseek : seek src c st = (.ok l, st')) :
    l.Suits c.kind := by
  obtain ⟨trail, htrail⟩ := h.trail
  obtain ⟨htrail', -⟩ := htrail.seek (c := c)
  rw [seekTraced_fst, hseek] at htrail'
  obtain ⟨node', hnode', hfits⟩ := htrail'.fits _ (htrail'.last _ _ (seek_last hseek)).1
  obtain rfl : node = node' := Option.some.inj (hnode.symm.trans hnode')
  cases hfits with
  | tag => exact hfrom.1
  | text => exact hfrom.2.1

/-- A request in document order finds its node, or fails at this node or at one before it. -/
theorem Underway.seekEnding (h : Underway src d k st) (hk : k ≤ c.node + 1)
    (hnode : d.nodes[c.node]? = some node) (hfrom : c.From node)
    (hblank : Text.isBlank c.value = false) :
    (∃ l, seekEnding src c st = .found l ∧ l.Suits c.kind) ∨
      ∃ e, Resolver.seekEnding src c st = .failed e ∧ Cause src d c e := by
  have hfound : ∀ l, Resolver.seekEnding src c st = .found l → l.Suits c.kind := fun l hl =>
    h.suits hnode hfrom (Prod.ext (seek_of_ending (by rw [hl]; rfl)) rfl)
  rcases h.cases hk with ⟨-, l, hlast⟩ | ⟨hle, -, hending⟩
  · have hl : Resolver.seekEnding src c st = .found l := by simp [Resolver.seekEnding, hlast]
    exact .inl ⟨l, hl, hfound l hl⟩
  · obtain ⟨trail, htrail⟩ := h.trail
    obtain ⟨before, after, hcut, hbefore⟩ := Document.exists_drop_indexed hle hnode
    rw [hcut] at hending
    rw [hending] at hfound ⊢
    rcases advanceEnding_ahead hnode hfrom hblank hbefore after h.synced htrail.cursor_le with
      ⟨l, hl⟩ | hfailed
    · exact .inl ⟨l, hl, hfound l hl⟩
    · exact .inr hfailed

/-- So seeking the node has an answer that is not owed to nodes running out. -/
theorem Underway.sought (h : Underway src d k st) (hk : k ≤ c.node + 1)
    (hnode : d.nodes[c.node]? = some node) (hfrom : c.From node)
    (hblank : Text.isBlank c.value = false) :
    (Resolver.seekEnding src c st).answer? = some (seek src c st).1 := by
  rcases h.seekEnding hk hnode hfrom hblank with ⟨l, hfound, -⟩ | ⟨e, hfailed, -⟩
  · rw [seek_of_ending (r := .ok l) (by rw [hfound]; rfl), hfound]
    rfl
  · rw [seek_of_ending (r := .error e) (by rw [hfailed]; rfl), hfailed]
    rfl

/-- A request in document order that fails has its cause in the source. -/
theorem Underway.cause (h : Underway src d k st) (hk : k ≤ c.node + 1)
    (hnode : d.nodes[c.node]? = some node) (hfrom : c.From node)
    (hblank : Text.isBlank c.value = false) {e : LocateError}
    (herror : (resolve src c st).1 = .error e) : Cause src d c e := by
  obtain ⟨trail, htrail⟩ := h.trail
  obtain ⟨htrail', -⟩ := htrail.seek (c := c)
  rw [seekTraced_fst] at htrail'
  have hsync := ((Alike.refl h.synced).seek htrail.cursor_le c).2.left
  rw [resolve_eq] at herror
  unfold rawRange at herror
  rcases h.seekEnding hk hnode hfrom hblank with ⟨l, hl, hsuits⟩ | ⟨e', hfailed, hcause⟩
  · have hseek : (seek src c st).1 = .ok l := seek_of_ending (by rw [hl]; rfl)
    have hlast : (seek src c st).2.last = some (c.node, some l) := seek_last (Prod.ext hseek rfl)
    obtain ⟨hmem, hcursor⟩ := htrail'.last _ _ hlast
    obtain ⟨node', hnode', hfits⟩ := htrail'.fits _ hmem
    generalize seek src c st = sought at *
    obtain ⟨place, st₁⟩ := sought
    subst hseek
    simp only at herror
    split at herror
    · rename_i hrange
      cases herror
      unfold rangeIn at hrange
      match hkind : c.kind, l with
      | .text, .text s => simp [hkind] at hrange
      | .text, .tag t => cases hkind.symm.trans hsuits
      | .attribute, .text s => cases hkind.symm.trans hsuits
      | .attribute, .tag t =>
        simp only [hkind] at hrange
        split at hrange
        · rename_i hattribute
          cases hrange
          exact locateAttribute_cause hkind hnode' hfits hsync hcursor
            (congrArg Prod.fst hattribute)
        · cases hrange
    · unfold evidence at herror
      split at herror
      · cases herror
        exact .evidence _
      · cases herror
      · cases herror
  · have hseek : (seek src c st).1 = .error e' := seek_of_ending (by rw [hfailed]; rfl)
    generalize seek src c st = sought at herror hseek
    obtain ⟨r, st'⟩ := sought
    subst hseek
    cases herror
    exact hcause

/-- A request in document order that returns leaves the nodes behind its own ahead. -/
theorem Underway.next (h : Underway src d k st) (hk : k ≤ c.node + 1) {r : Option EvidenceSpan}
    {st' : State} (hresolve : resolve src c st = (.ok r, st')) : Underway src d (c.node + 1) st' := by
  obtain ⟨trail, htrail⟩ := h.trail
  have hafter : (call src c st).after = st' := congrArg Prod.snd hresolve
  obtain ⟨l, st₁, -, -, -, hseek, -, -⟩ := resolve_ok hresolve
  have hlooked := resolve_looked src c st
  rw [hresolve, hseek] at hlooked
  have hsync := ((Alike.refl h.synced).seek htrail.cursor_le c).2.left
  rw [hseek] at hsync
  have hlast : st'.last = some (c.node, some l) := hlooked.last.trans (seek_last hseek)
  refine ⟨⟨_, hafter ▸ (htrail.call (c := c)).1⟩, hsync.looked hlooked, ?_, ?_, ?_⟩
  · rw [hlooked.remaining]
    rcases h.cases hk with ⟨hk, l', hlast'⟩ | ⟨-, hadvance, -⟩
    · rw [seek_of_last hlast'] at hseek
      cases hseek
      rw [h.remaining, hk]
    · rw [hadvance] at hseek
      obtain ⟨before, node, hcut⟩ := advance_remaining hseek
      exact Document.drop_indexed_eq hcut
  · intro i l' h'
    rw [hlast] at h'
    cases h'
    exact Nat.lt_succ_self _
  · intro i hi
    obtain rfl : i = c.node := Nat.succ.inj hi
    exact ⟨l, hlast⟩

end Request

end Resolver

end Untranslated
