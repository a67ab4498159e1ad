import Untranslated.Files.Collect
import Untranslated.Proofs.Text
import Mathlib.Data.List.Flatten
import Mathlib.Data.List.Forall2
import Mathlib.Tactic.SplitIfs

/-!
# Looking up paths

A path that leads somewhere still leads there when it is read and written out again. Looking up can
fail, so the module begins with what it means that a computation built from others does not.

* Reading drops the names that stand for nothing, and following the others ends in the same place
  (`follow_filter`).
* The text of the path that was read is no longer than the text it was read from
  (`text_ofText_sublist`), so it does not run into the limit on bytes.
* Hence `open?_text_ofText`: what is open under a text is open under the text of its path, and
  collecting the files there succeeds (`collect_eq_ok`).
-/

namespace Untranslated

/-! ## Computations that can fail -/

section
variable {ε α β : Type}

theorem bind_eq_ok {x : Except ε α} {f : α → Except ε β} {b : β} :
    x >>= f = .ok b ↔ ∃ a, x = .ok a ∧ f a = .ok b := by
  cases x <;> simp [bind, Except.bind]

theorem forM_eq_ok {f : α → Except ε PUnit} {xs : List α} :
    xs.forM f = .ok () ↔ ∀ x ∈ xs, f x = .ok () := by
  induction xs with
  | nil => simp [pure, Except.pure]
  | cons x xs ih =>
    change (f x >>= fun _ => xs.forM f) = _ ↔ _
    rw [bind_eq_ok, List.forall_mem_cons, ih]
    constructor
    · rintro ⟨⟨⟩, hx, hxs⟩
      exact ⟨hx, hxs⟩
    · rintro ⟨hx, hxs⟩
      exact ⟨_, hx, hxs⟩

theorem exists_forall₂ {r : α → β → Prop} {xs : List α} (h : ∀ x ∈ xs, ∃ y, r x y) :
    ∃ ys, List.Forall₂ r xs ys := by
  induction xs with
  | nil => exact ⟨[], .nil⟩
  | cons x xs ih =>
    obtain ⟨⟨y, hy⟩, hxs⟩ := List.forall_mem_cons.mp h
    obtain ⟨ys, hys⟩ := ih hxs
    exact ⟨y :: ys, .cons hy hys⟩

theorem mapM_eq_ok {f : α → Except ε β} {xs : List α} {ys : List β}
    (h : List.Forall₂ (fun x y => f x = .ok y) xs ys) : xs.mapM f = .ok ys := by
  induction h with
  | nil => simp [pure, Except.pure]
  | cons hx _ ih => simp [hx, ih, bind, Except.bind, pure, Except.pure]

end

/-! ## Pieces of a text -/

namespace Text

theorem splitOn_ne_nil (sep : Char) (s : Text) : splitOn sep s ≠ [] := by
  cases s with
  | nil => simp [splitOn]
  | cons c s =>
    unfold splitOn
    split
    · simp
    · split <;> simp

theorem splitOn_cons_self (sep : Char) (s : Text) : splitOn sep (sep :: s) = [] :: splitOn sep s := by
  rw [splitOn, if_pos rfl]

/-- A character that does not separate belongs to the first piece. -/
theorem splitOn_cons_of_ne {sep c : Char} (h : c ≠ sep) (s : Text) :
    ∃ piece more, splitOn sep s = piece :: more ∧ splitOn sep (c :: s) = (c :: piece) :: more := by
  obtain ⟨piece, more, hs⟩ := List.exists_cons_of_ne_nil (splitOn_ne_nil sep s)
  exact ⟨piece, more, hs, by rw [splitOn, if_neg h, hs]⟩

theorem join_cons_of_ne_nil (sep piece : Text) {more : List Text} (h : more ≠ []) :
    join sep (piece :: more) = piece ++ sep ++ join sep more := by
  cases more with
  | nil => exact absurd rfl h
  | cons p more => rfl

theorem join_splitOn (sep : Char) (s : Text) : join [sep] (splitOn sep s) = s := by
  induction s with
  | nil => rfl
  | cons c s ih =>
    by_cases hc : c = sep
    · rw [hc, splitOn_cons_self, join_cons_of_ne_nil _ _ (splitOn_ne_nil sep s), ih]
      rfl
    · obtain ⟨piece, more, hs, hcs⟩ := splitOn_cons_of_ne hc s
      rw [hs] at ih
      rw [hcs]
      cases more with
      | nil => exact congrArg (c :: ·) ih
      | cons p more => exact congrArg (c :: ·) ih

theorem not_mem_of_mem_splitOn {sep : Char} {s p : Text} (h : p ∈ splitOn sep s) : sep ∉ p := by
  induction s generalizing p with
  | nil => simp_all [splitOn]
  | cons c s ih =>
    by_cases hc : c = sep
    · rw [hc, splitOn_cons_self, List.mem_cons] at h
      rcases h with rfl | h
      · exact List.not_mem_nil
      · exact ih h
    · obtain ⟨piece, more, hs, hcs⟩ := splitOn_cons_of_ne hc s
      rw [hs] at ih
      rw [hcs, List.mem_cons] at h
      rcases h with rfl | h
      · have hpiece := ih List.mem_cons_self
        simp [hpiece, Ne.symm hc]
      · exact ih (List.mem_cons_of_mem _ h)

/-- A text without the separator is one piece, and a separator ends it. -/
theorem splitOn_append {sep : Char} {p : Text} (h : sep ∉ p) (s : Text) :
    splitOn sep p = [p] ∧ splitOn sep (p ++ sep :: s) = p :: splitOn sep s := by
  induction p with
  | nil => exact ⟨rfl, splitOn_cons_self sep s⟩
  | cons c p ih =>
    have hc : c ≠ sep := fun hc => h (by simp [hc])
    obtain ⟨hone, hmore⟩ := ih fun hp => h (List.mem_cons_of_mem c hp)
    rw [List.cons_append, splitOn, if_neg hc, splitOn, if_neg hc, hone, hmore]
    exact ⟨rfl, rfl⟩

theorem splitOn_join {sep : Char} {pieces : List Text} (hne : pieces ≠ [])
    (h : ∀ p ∈ pieces, sep ∉ p) : splitOn sep (join [sep] pieces) = pieces := by
  induction pieces with
  | nil => exact absurd rfl hne
  | cons p pieces ih =>
    obtain ⟨hp, hpieces⟩ := List.forall_mem_cons.mp h
    cases pieces with
    | nil => exact (splitOn_append hp []).1
    | cons q pieces =>
      rw [join_cons_of_ne_nil _ _ (List.cons_ne_nil q pieces), List.append_assoc,
        List.singleton_append, (splitOn_append hp _).2, ih (List.cons_ne_nil q pieces) hpieces]

theorem join_sublist_join (sep : Text) {ps qs : List Text} (h : ps.Sublist qs) :
    (join sep ps).Sublist (join sep qs) := by
  induction h with
  | slnil => exact List.Sublist.refl _
  | @cons ps qs q h ih =>
    cases qs with
    | nil =>
      rw [List.sublist_nil.mp h]
      exact List.nil_sublist _
    | cons q' qs => exact ih.trans (List.sublist_append_right _ _)
  | @cons_cons ps qs p h ih =>
    cases ps with
    | nil =>
      cases qs with
      | nil => exact List.Sublist.refl _
      | cons q' qs =>
        rw [join_cons_of_ne_nil _ _ (List.cons_ne_nil q' qs), List.append_assoc]
        exact List.sublist_append_left _ _
    | cons p' ps =>
      have hqs : qs ≠ [] := fun hqs => by simp [hqs] at h
      rw [join_cons_of_ne_nil _ _ (List.cons_ne_nil p' ps), join_cons_of_ne_nil _ _ hqs]
      exact (List.Sublist.refl _).append ih

end Text

/-! ## The bytes of a text -/

namespace FileTree

theorem length_toList_loop (b : ByteArray) (i : Nat) (bytes : List UInt8) :
    (ByteArray.toList.loop b i bytes).length = bytes.length + (b.size - i) := by
  fun_induction ByteArray.toList.loop b i bytes with
  | case1 i bytes h ih =>
    rw [ih, List.length_cons]
    omega
  | case2 i bytes h =>
    rw [List.length_reverse]
    omega

theorem byteCount_eq (s : Text) : byteCount s = (s.flatMap String.utf8EncodeChar).length := by
  have hloop := length_toList_loop (String.ofList s).toUTF8 0 []
  have hsize : (String.ofList s).toUTF8.size = (s.flatMap String.utf8EncodeChar).length := by
    simp [String.toUTF8_eq_toByteArray, List.utf8Encode, List.size_toByteArray]
  rw [byteCount, Utf8.encode, ByteArray.toList, hloop, hsize, List.length_nil]
  omega

theorem byteCount_le {s u : Text} (h : s.Sublist u) : byteCount s ≤ byteCount u := by
  rw [byteCount_eq, byteCount_eq]
  exact (h.flatMap String.utf8EncodeChar).length_le

/-! ## Following names -/

/-- A name that stands for nothing is followed in a directory only, and stays there. -/
theorem follow_cons_blank {path name : Text} (hname : name = [] ∨ name = ['.'])
    (names : List Text) (stack : List FileNode) (node : FileNode) :
    follow path (name :: names) stack = .ok node ↔
      (∃ entries outer, stack = .directory entries :: outer) ∧
        follow path names stack = .ok node := by
  cases stack with
  | nil => simp [follow]
  | cons top outer =>
    cases top with
    | file content => simp [follow]
    | directory entries => simp [follow, hname]

/-- Where names lead does not depend on those that stand for nothing, nor on the text in the
errors. -/
theorem follow_filter {path : Text} {names : List Text} {stack : List FileNode} {node : FileNode}
    (h : follow path names stack = .ok node) (path' : Text) :
    follow path' (names.filter fun p => !p.isEmpty && p != ['.']) stack = .ok node := by
  fun_induction follow path names stack with
  | case1 top outer => exact h
  | case2 | case3 | case6 | case7 => cases h
  | case4 name names outer entries hname ih =>
    have hname : name = [] ∨ name = ['.'] := by simpa using hname
    rw [List.filter_cons_of_neg (by rcases hname with rfl | rfl <;> simp)]
    exact ih h
  | case5 names outer entries hname ih =>
    rw [List.filter_cons_of_pos (by simp), follow, if_neg hname, if_pos rfl]
    exact ih h
  | case8 name names outer entries hname hup hshort inner hentry ih =>
    rw [List.filter_cons_of_pos (by simpa using hname), follow, if_neg hname, if_neg hup,
      if_neg hshort, hentry]
    exact ih h

end FileTree

/-! ## Paths read and written -/

namespace Path

/-- The path of something below a directory, at the given names. -/
def below (p : Path) (names : List Text) : Path := { p with parts := p.parts ++ names }

@[simp] theorem below_parts (p : Path) (names : List Text) :
    (p.below names).parts = p.parts ++ names := rfl

/-- The names of the path are such as reading leaves: none of them is empty, a single dot or holds a
slash. -/
def Proper (p : Path) : Prop := ∀ name ∈ p.parts, name ≠ [] ∧ name ≠ ['.'] ∧ '/' ∉ name

theorem proper_ofText (s : Text) : (ofText s).Proper := by
  intro name h
  obtain ⟨hmem, hname⟩ := List.mem_filter.mp h
  refine ⟨?_, ?_, Text.not_mem_of_mem_splitOn hmem⟩ <;> rintro rfl <;> simp at hname

/-- The names of a path, written out and cut again; a path without names has one that stands for
nothing. -/
theorem splitOn_text {p : Path} (hp : p.Proper) :
    Text.splitOn '/' p.text =
      if p.absolute then [] :: if p.parts = [] then [[]] else p.parts
      else if p.parts = [] then [['.']] else p.parts := by
  have hjoin : p.parts ≠ [] → Text.splitOn '/' (Text.join ['/'] p.parts) = p.parts := fun hne =>
    Text.splitOn_join hne fun name hname => (hp name hname).2.2
  unfold text
  cases habs : p.absolute with
  | true =>
    by_cases hne : p.parts = []
    · simp [hne, Text.join, Text.splitOn]
    · simp [hne, Text.splitOn_cons_self, hjoin hne]
  | false =>
    by_cases hne : p.parts = []
    · simp [hne, Text.splitOn]
    · simp [hne, hjoin hne]

/-- A path that is written out begins with a slash if and only if it begins at the root. -/
theorem text_head {p : Path} (hp : p.Proper) :
    ∃ c rest, p.text = c :: rest ∧ p.absolute = ('/' == c) := by
  unfold text
  cases habs : p.absolute with
  | true => exact ⟨'/', _, rfl, rfl⟩
  | false =>
    cases hparts : p.parts with
    | nil => exact ⟨'.', [], rfl, rfl⟩
    | cons name parts =>
      obtain ⟨hname, -, hslash⟩ := hp name (hparts ▸ List.mem_cons_self)
      obtain ⟨c, name, rfl⟩ := List.exists_cons_of_ne_nil hname
      have hc : false = ('/' == c) := by
        rw [List.mem_cons, not_or] at hslash
        exact (beq_false_of_ne hslash.1).symm
      cases parts with
      | nil => exact ⟨c, name, rfl, hc⟩
      | cons name' parts => exact ⟨c, _, rfl, hc⟩

theorem startsWith_text {p : Path} (hp : p.Proper) : Text.startsWith ['/'] p.text = p.absolute := by
  obtain ⟨c, rest, htext, hslash⟩ := text_head hp
  rw [htext, hslash]
  simp [Text.startsWith, List.isPrefixOf]

theorem text_ne_nil {p : Path} (hp : p.Proper) : p.text ≠ [] := by
  obtain ⟨c, rest, htext, -⟩ := text_head hp
  simp [htext]

/-- The text of a path is a part of the text that it was read from, apart from the dot for a path
without names. -/
theorem text_ofText_sublist (s : Text) :
    (ofText s).text = ['.'] ∨ (ofText s).text.Sublist s := by
  have hjoin : ∀ {names : List Text} {rest : Text}, names.Sublist (Text.splitOn '/' rest) →
      (Text.join ['/'] names).Sublist rest := fun {names rest} h => by
    have hsub := Text.join_sublist_join ['/'] h
    rwa [Text.join_splitOn] at hsub
  unfold text
  split
  · exact .inl rfl
  · rename_i habs
    obtain ⟨rest, rfl⟩ := Text.startsWith_iff.mp habs
    -- The name before the leading slash is empty and is not kept.
    have hparts : (ofText (['/'] ++ rest)).parts.Sublist (Text.splitOn '/' rest) := by
      rw [ofText, List.singleton_append, Text.splitOn_cons_self, List.filter_cons_of_neg (by simp)]
      exact List.filter_sublist
    exact .inr ((hjoin hparts).cons_cons '/')
  · exact .inr (hjoin List.filter_sublist)

end Path

namespace FileTree

/-- The names of a path lead where the names lead that it was read from. -/
theorem follow_text_ofText {s : Text} {stack : List FileNode} {node : FileNode}
    (h : follow s (Text.splitOn '/' s) stack = .ok node) (path' : Text) :
    follow path' (Text.splitOn '/' (Path.ofText s).text) stack = .ok node := by
  have hparts : follow path' (Path.ofText s).parts stack = .ok node := follow_filter h path'
  obtain ⟨name, names, hs⟩ := List.exists_cons_of_ne_nil (Text.splitOn_ne_nil '/' s)
  rw [Path.splitOn_text (Path.proper_ofText s)]
  by_cases hname : name = [] ∨ name = ['.']
  · -- The first name stands for nothing, so it was followed in a directory, and so are others.
    rw [hs, follow_cons_blank hname] at h
    have hcons : ∀ {name' : Text}, name' = [] ∨ name' = ['.'] → ∀ {names' : List Text},
        follow path' names' stack = .ok node → follow path' (name' :: names') stack = .ok node :=
      fun hname' _ hnames' => (follow_cons_blank hname' _ _ _).mpr ⟨h.1, hnames'⟩
    split_ifs with _ hnil hnil
    · exact hcons (.inl rfl) (hcons (.inl rfl) (hnil ▸ hparts))
    · exact hcons (.inl rfl) hparts
    · exact hcons (.inr rfl) (hnil ▸ hparts)
    · exact hparts
  · have hrelative : ¬(Path.ofText s).absolute = true := fun habs => by
      obtain ⟨rest, rfl⟩ := Text.startsWith_iff.mp habs
      rw [List.singleton_append, Text.splitOn_cons_self] at hs
      exact hname (.inl (List.cons.inj hs).1.symm)
    have hne : (Path.ofText s).parts ≠ [] := by
      simp [Path.ofText, hs, List.filter_cons_of_pos, not_or.mp hname]
    rw [if_neg hrelative, if_neg hne]
    exact hparts

/-- Where the names of a path are followed from. -/
def startOf (t : FileTree) (path : Text) : List FileNode :=
  if Text.startsWith ['/'] path then [t.root] else t.workingDirectories

theorem open?_eq (t : FileTree) (s : Text) :
    t.open? s =
      if s.contains (Char.ofNat 0) then .error .nullByte
      else if s.isEmpty then .error (.notFound s)
      else if pathLimit < byteCount s then .error (.nameTooLong s)
      else follow s (Text.splitOn '/' s) (t.startOf s) := by
  unfold open? startOf
  split_ifs <;> rfl

theorem open?_eq_ok {t : FileTree} {s : Text} {node : FileNode} :
    t.open? s = .ok node ↔ Char.ofNat 0 ∉ s ∧ s ≠ [] ∧ byteCount s ≤ pathLimit ∧
      follow s (Text.splitOn '/' s) (t.startOf s) = .ok node := by
  rw [← Nat.not_lt, open?_eq]
  split_ifs <;> simp_all

theorem open?_eq_of_lookUp {t : FileTree} {p : Path} {node : FileNode}
    (h : t.lookUp p = .ok (some node)) : t.open? p.text = .ok node := by
  unfold lookUp at h
  split at h
  · rename_i hopen
    cases h
    exact hopen
  · cases h
  · cases h

/-- What a text leads to, the path read from it leads to as well. -/
theorem open?_text_ofText {t : FileTree} {s : Text} {node : FileNode} (h : t.open? s = .ok node) :
    t.open? (Path.ofText s).text = .ok node := by
  obtain ⟨hnull, -, hlong, hfollow⟩ := open?_eq_ok.mp h
  have hproper := Path.proper_ofText s
  have hstart : t.startOf (Path.ofText s).text = t.startOf s := by
    rw [startOf, Path.startsWith_text hproper]
    rfl
  refine open?_eq_ok.mpr ⟨?_, Path.text_ne_nil hproper, ?_, hstart ▸ follow_text_ofText hfollow _⟩
  · rcases Path.text_ofText_sublist s with hdot | hsub
    · rw [hdot]
      decide
    · exact fun hmem => hnull (hsub.subset hmem)
  · rcases Path.text_ofText_sublist s with hdot | hsub
    · rw [hdot, byteCount_eq]
      decide
    · exact Nat.le_trans (byteCount_le hsub) hlong

/-- Below a path that leads somewhere, files can be collected. -/
theorem collect_eq_ok {t : FileTree} {s : Text} {node : FileNode} (h : t.open? s = .ok node)
    (f : Collect.Filter) : ∃ found, t.collect (Path.ofText s) f = .ok found := by
  rw [collect, lookUp, open?_text_ofText h]
  exact ⟨_, rfl⟩

end FileTree

end Untranslated
