import ArchSketch.Proofs.Reply.Block

/-! Fences among delimiters. Whoever reads a reply takes its three backticks from the left, the
first as an opening one, the next as a closing one, and so on. The reader of fences does not count:
a tag after any of them starts a fence. So a body always lies between two neighbouring delimiters,
but whether they are a pair depends on how many come before it. -/
namespace ArchSketch.Reply

open Text

variable {a b l s t w lead rest : List Char} {c : Char} {place skip d : Nat}

/-- The places of three backticks, from the left and without overlap; the first `skip` characters
belong to the backticks found last. -/
def delimitersFrom : (place skip : Nat) → List Char → List Nat
  | _, _, [] => []
  | place, skip + 1, _ :: t => delimitersFrom (place + 1) skip t
  | place, 0, c :: t =>
    if fence.isPrefixOf (c :: t) then place :: delimitersFrom (place + 1) (fence.length - 1) t
    else delimitersFrom (place + 1) 0 t

def delimiters (t : List Char) : List Nat := delimitersFrom 0 0 t

def alternately : List Nat → List (Nat × Nat)
  | [] => []
  | [_] => []
  | opening :: closing :: places => (opening, closing) :: alternately places

structure Passage where
  place : Nat
  text : List Char
  deriving DecidableEq

def bodiesFrom : (place skip : Nat) → List Char → List Passage
  | _, _, [] => []
  | place, skip + 1, _ :: t => bodiesFrom (place + 1) skip t
  | place, 0, c :: t =>
    match fenced? (c :: t) with
    | some (body, rest) =>
      ⟨place + ((c :: t).length - (body ++ fence ++ rest).length), body⟩ ::
        bodiesFrom (place + 1) (t.length - rest.length) t
    | none => bodiesFrom (place + 1) 0 t

def bodies (t : List Char) : List Passage := bodiesFrom 0 0 t

def Passage.IsBetween (p : Passage) (opening closing : Nat) : Prop :=
  opening + fence.length ≤ p.place ∧ p.place + p.text.length ≤ closing

instance (p : Passage) (o c : Nat) : Decidable (p.IsBetween o c) :=
  inferInstanceAs (Decidable (_ ∧ _))

def IsInside (t : List Char) (p : Passage) : Prop :=
  ∃ pair ∈ alternately (delimiters t), p.IsBetween pair.1 pair.2

instance (t : List Char) (p : Passage) : Decidable (IsInside t p) :=
  inferInstanceAs (Decidable (∃ pair ∈ alternately (delimiters t), _))

/-! Delimiters. -/

theorem delimitersFrom_fence_append (place : Nat) (s : List Char) :
    delimitersFrom place 0 (fence ++ s) = place :: delimitersFrom (place + fence.length) 0 s := by
  have hfence : fence.isPrefixOf (fence ++ s) = true := by simp
  simp [fence, delimitersFrom] at hfence ⊢

theorem length_delimitersFrom (place skip : Nat) (t : List Char) :
    (delimitersFrom place skip t).length = (delimitersFrom 0 skip t).length := by
  induction t generalizing place skip with
  | nil => simp [delimitersFrom]
  | cons c t ih =>
    cases skip with
    | succ skip => rw [delimitersFrom, delimitersFrom, ih, ih 1]
    | zero =>
      rw [delimitersFrom, delimitersFrom]
      split
      · rw [List.length_cons, List.length_cons, ih, ih 1]
      · rw [ih, ih 1]

theorem bounds_of_mem_delimitersFrom (h : d ∈ delimitersFrom place skip t) :
    place ≤ d ∧ d + fence.length ≤ place + t.length := by
  induction t generalizing place skip with
  | nil => simp [delimitersFrom] at h
  | cons c t ih =>
    have htail {skip : Nat} (h : d ∈ delimitersFrom (place + 1) skip t) :
        place ≤ d ∧ d + fence.length ≤ place + (c :: t).length := by
      have hbounds := ih h
      simp only [List.length_cons]
      omega
    cases skip with
    | succ skip => exact htail h
    | zero =>
      rw [delimitersFrom] at h
      split at h
      case isTrue hprefix =>
        rcases List.mem_cons.1 h with rfl | h
        · have hlength := (List.isPrefixOf_iff_prefix.1 hprefix).length_le
          omega
        · exact htail h
      case isFalse => exact htail h

theorem delimitersFrom_eq_nil_iff : delimitersFrom place 0 t = [] ↔ ¬ fence <:+: t := by
  induction t generalizing place with
  | nil => simp [delimitersFrom, fence]
  | cons c t ih =>
    rw [delimitersFrom, List.infix_cons_iff, ← List.isPrefixOf_iff_prefix]
    by_cases h : fence.isPrefixOf (c :: t) = true
    · simp [h]
    · simp [h, ih]

theorem delimitersFrom_append_cons (hc : c ≠ '\x60') (hskip : skip ≤ a.length) (b : List Char) :
    delimitersFrom place skip (a ++ c :: b) =
      delimitersFrom place skip a ++ delimitersFrom (place + a.length + 1) 0 b := by
  induction a generalizing place skip with
  | nil =>
    obtain rfl : skip = 0 := by simpa using hskip
    have hprefix : fence.isPrefixOf (c :: b) = false := by
      simp [fence, List.isPrefixOf, hc.symm]
    simp [delimitersFrom, hprefix]
  | cons d a ih =>
    have hplace : place + (d :: a).length + 1 = place + 1 + a.length + 1 := by simp; omega
    cases skip with
    | succ skip =>
      rw [List.cons_append, delimitersFrom, delimitersFrom, hplace, ih (by simpa using hskip)]
    | zero =>
      -- three backticks that start in the first text end there
      have hfence : c ∉ fence := by simp [fence, hc]
      have hprefix : fence.isPrefixOf (d :: (a ++ c :: b)) = fence.isPrefixOf (d :: a) := by
        rw [Bool.eq_iff_iff, List.isPrefixOf_iff_prefix, List.isPrefixOf_iff_prefix]
        constructor
        · exact prefix_of_prefix_append_cons (a := d :: a) hfence
        · intro h
          exact h.trans ⟨c :: b, by simp⟩
      rw [List.cons_append, delimitersFrom, delimitersFrom, hprefix, hplace]
      split
      case isTrue h =>
        have hlength := (List.isPrefixOf_iff_prefix.1 h).length_le
        rw [ih (by simp at hlength; omega), List.cons_append]
      case isFalse => rw [ih (by omega)]

theorem delimitersFrom_append_plain (hw : '\x60' ∉ w) (hne : w ≠ []) (a b : List Char) :
    delimitersFrom place 0 (a ++ w ++ b) =
      delimitersFrom place 0 a ++ delimitersFrom (place + (a ++ w).length) 0 b := by
  induction w generalizing a with
  | nil => contradiction
  | cons c w ih =>
    have hc : c ≠ '\x60' := Ne.symm (List.ne_of_not_mem_cons hw)
    have hfirst (b : List Char) : delimitersFrom place 0 (a ++ c :: b) =
        delimitersFrom place 0 a ++ delimitersFrom (place + a.length + 1) 0 b :=
      delimitersFrom_append_cons hc (by omega) b
    by_cases hnil : w = []
    · subst hnil
      simpa [Nat.add_assoc] using hfirst b
    · have hrest := ih (List.not_mem_of_not_mem_cons hw) hnil (a ++ [c])
      have hhead : delimitersFrom place 0 (a ++ [c]) = delimitersFrom place 0 a := by
        rw [hfirst [], delimitersFrom, List.append_nil]
      rw [hhead] at hrest
      simpa using hrest

/-- A text without a delimiter that does not end in a backtick is passed over. -/
theorem delimitersFrom_body (hplain : ¬ fence <:+: b) (hend : b.getLast? ≠ some '\x60')
    (s : List Char) : delimitersFrom place 0 (b ++ s) = delimitersFrom (place + b.length) 0 s := by
  cases b using List.reverseRecOn with
  | nil => simp
  | append_singleton b c =>
    have hc : c ≠ '\x60' := by simpa using hend
    have hnil : delimitersFrom place 0 b = [] := by
      rw [delimitersFrom_eq_nil_iff]
      intro h
      exact hplain (h.trans ⟨[], [c], by simp⟩)
    rw [List.append_assoc, List.singleton_append, delimitersFrom_append_cons hc (by omega), hnil,
      List.nil_append, List.length_append, List.length_singleton, Nat.add_assoc]

theorem mem_alternately_iff {places : List Nat} {o c : Nat} : (o, c) ∈ alternately places ↔
    ∃ x z, places = x ++ o :: c :: z ∧ Even x.length := by
  induction places using alternately.induct with
  | case1 => simp [alternately]
  | case2 opening =>
    have hlength (x z : List Nat) : [opening] ≠ x ++ o :: c :: z := by
      intro h
      have := congrArg List.length h
      simp at this
      omega
    simp [alternately, hlength]
  | case3 opening closing places ih =>
    rw [alternately, List.mem_cons, ih]
    constructor
    · intro h
      rcases h with h | ⟨x, z, rfl, hx⟩
      · obtain ⟨rfl, rfl⟩ := Prod.mk.inj h
        exact ⟨[], places, rfl, by simp⟩
      · exact ⟨opening :: closing :: x, z, rfl, by simpa [Nat.even_add] using hx⟩
    · rintro ⟨x, z, hsplit, hx⟩
      rcases x with _ | ⟨p, _ | ⟨q, x⟩⟩
      · left
        simp_all
      · simp at hx
      · right
        obtain ⟨rfl, rfl, rfl⟩ : opening = p ∧ closing = q ∧ places = x ++ o :: c :: z := by
          simpa using hsplit
        exact ⟨x, z, rfl, by simpa [Nat.even_add] using hx⟩

theorem exists_pair_iff {p : Passage} {before after : List Nat}
    (hbefore : ∀ d ∈ before, d + fence.length ≤ p.place) (hafter : ∀ d ∈ after, p.place ≤ d) :
    (∃ pair ∈ alternately (before ++ (p.place + p.text.length) :: after),
      p.IsBetween pair.1 pair.2) ↔ Odd before.length := by
  have hfence : 0 < fence.length := by decide
  constructor
  · rintro ⟨⟨o, c⟩, hpair, ho, hc⟩
    have hlate : o ∉ (p.place + p.text.length) :: after := by
      intro hmem
      rcases List.mem_cons.1 hmem with h | h
      · omega
      · have := hafter o h
        omega
    obtain ⟨x, z, hsplit, hx⟩ := mem_alternately_iff.1 hpair
    rcases List.append_eq_append_iff.1 hsplit with ⟨y, -, hy⟩ | ⟨y, rfl, hy⟩
    · exact absurd (hy ▸ by simp) hlate
    · rcases y with _ | ⟨q, _ | ⟨r, y⟩⟩
      · obtain rfl : o = p.place + p.text.length := (List.cons.inj hy).1
        exact absurd List.mem_cons_self hlate
      · simpa using hx.add_one
      · -- then the closing one of the pair would stand before the passage
        obtain ⟨-, rfl, -⟩ : o = q ∧ c = r ∧ _ := by simpa using hy
        have := hbefore c (by simp)
        omega
  · intro hodd
    obtain ⟨x, o, rfl⟩ : ∃ x o, before = x ++ [o] :=
      (List.eq_nil_or_concat' before).resolve_left fun hnil => by simp [hnil] at hodd
    have heven : Even x.length := by simpa [Nat.odd_add_one] using hodd
    refine ⟨(o, p.place + p.text.length), mem_alternately_iff.2 ⟨x, after, by simp, heven⟩, ?_⟩
    exact ⟨hbefore o (by simp), le_refl _⟩

/-! Bodies among delimiters. -/

def Fence.opening (f : Fence) : List Char := fence ++ f.gap ++ f.tag ++ f.info ++ f.lineEnd

theorem map_text_bodiesFrom (place skip : Nat) (t : List Char) :
    (bodiesFrom place skip t).map Passage.text = blocksFrom fenced? skip t := by
  induction t generalizing place skip with
  | nil => simp [bodiesFrom, blocksFrom]
  | cons c t ih =>
    cases skip with
    | succ skip => exact ih _ _
    | zero =>
      rw [bodiesFrom, blocksFrom]
      cases fenced? (c :: t) with
      | none => exact ih _ _
      | some block => simp [ih]

theorem exists_fence_of_mem_bodiesFrom {p : Passage} (h : p ∈ bodiesFrom place skip t) :
    ∃ (lead : List Char) (f : Fence) (rest : List Char), t = lead ++ f.text ++ rest ∧
      p = ⟨place + (lead ++ f.opening).length, f.body⟩ := by
  induction t generalizing place skip with
  | nil => simp [bodiesFrom] at h
  | cons c t ih =>
    have htail {skip : Nat} (h : p ∈ bodiesFrom (place + 1) skip t) :
        ∃ (lead : List Char) (f : Fence) (rest : List Char), c :: t = lead ++ f.text ++ rest ∧
          p = ⟨place + (lead ++ f.opening).length, f.body⟩ := by
      obtain ⟨lead, f, rest, rfl, rfl⟩ := ih h
      refine ⟨c :: lead, f, rest, by simp, ?_⟩
      congr 1
      simp only [List.cons_append, List.length_cons]
      omega
    cases skip with
    | succ skip => exact htail h
    | zero =>
      rw [bodiesFrom] at h
      split at h
      next body rest hfenced =>
        rcases List.mem_cons.1 h with rfl | h
        · obtain ⟨f, rfl, ht⟩ := fenced?_eq_some_iff.1 hfenced
          refine ⟨[], f, rest, by simpa using ht, ?_⟩
          congr 2
          rw [ht, Fence.text, Fence.opening]
          simp only [List.length_append, List.length_nil]
          omega
        · exact htail h
      next => exact htail h

theorem Fence.plain_lineEnd (f : Fence) : '\x60' ∉ f.lineEnd ∧ f.lineEnd ≠ [] := by
  have hends : ∀ lineEnd ∈ [['\n'], ['\r', '\n']], '\x60' ∉ lineEnd ∧ lineEnd ≠ [] := by decide
  exact hends _ f.lineEnd_mem

theorem Fence.plain_tag (f : Fence) : '\x60' ∉ f.gap ++ f.tag ∧ f.gap ++ f.tag ≠ [] := by
  have htag : f.tag ≠ [] := by
    intro hnil
    have hmem := f.tag_mem
    rw [hnil] at hmem
    exact absurd hmem (by decide)
  have hgap := backtick_not_mem_gap (List.all_eq_true.1 f.blank_gap)
  have hplain : '\x60' ∉ f.tag := not_mem_of_map_fold f.tag_mem (by decide)
  simp [hgap, hplain, htag]

/-- The delimiters of a text around a fence: those before its body, the one that closes it, and
those after it. -/
theorem delimiters_text (lead : List Char) (f : Fence) (rest : List Char) :
    delimiters (lead ++ f.text ++ rest) = delimiters (lead ++ f.opening) ++
      (lead ++ f.opening ++ f.body).length :: delimitersFrom (lead ++ f.text).length 0 rest := by
  have htext : lead ++ f.text ++ rest = (lead ++ fence ++ f.gap ++ f.tag ++ f.info) ++
      f.lineEnd ++ (f.body ++ (fence ++ rest)) := by
    simp [Fence.text]
  have hopening : lead ++ f.opening =
      (lead ++ fence ++ f.gap ++ f.tag ++ f.info) ++ f.lineEnd ++ [] := by
    simp [Fence.opening]
  obtain ⟨hplain, hne⟩ := f.plain_lineEnd
  rw [delimiters, delimiters, htext, hopening, delimitersFrom_append_plain hplain hne,
    delimitersFrom_append_plain hplain hne, delimitersFrom_body f.plain_body f.end_body,
    delimitersFrom_fence_append]
  simp [delimitersFrom, Fence.text, Nat.add_assoc]

theorem length_delimiters_opening (lead : List Char) (f : Fence) :
    (delimiters (lead ++ f.opening)).length =
      (delimiters (lead ++ fence)).length + (delimiters f.info).length := by
  have hopening : lead ++ f.opening =
      lead ++ fence ++ (f.gap ++ f.tag) ++ (f.info ++ f.lineEnd ++ []) := by
    simp [Fence.opening]
  obtain ⟨hplain, hne⟩ := f.plain_tag
  obtain ⟨hplainEnd, hneEnd⟩ := f.plain_lineEnd
  rw [delimiters, hopening, delimitersFrom_append_plain hplain hne,
    delimitersFrom_append_plain hplainEnd hneEnd, delimitersFrom, List.append_nil,
    List.length_append, length_delimitersFrom _ _ f.info, delimiters, delimiters]

theorem delimiters_opening_ne_nil (lead : List Char) (f : Fence) :
    delimiters (lead ++ f.opening) ≠ [] := by
  rw [delimiters, Ne, delimitersFrom_eq_nil_iff, not_not]
  exact ⟨lead, f.gap ++ f.tag ++ f.info ++ f.lineEnd, by simp [Fence.opening]⟩

theorem isInside_iff (lead : List Char) (f : Fence) (rest : List Char) :
    IsInside (lead ++ f.text ++ rest) ⟨(lead ++ f.opening).length, f.body⟩ ↔
      Odd (delimiters (lead ++ f.opening)).length := by
  have hbefore : ∀ d ∈ delimiters (lead ++ f.opening), d + fence.length ≤
      (lead ++ f.opening).length := by
    intro d hd
    simpa using (bounds_of_mem_delimitersFrom hd).2
  have hafter : ∀ d ∈ delimitersFrom (lead ++ f.text).length 0 rest,
      (lead ++ f.opening).length ≤ d := by
    intro d hd
    have hbounds := (bounds_of_mem_delimitersFrom hd).1
    simp [Fence.text, Fence.opening] at hbounds ⊢
    omega
  have hclosing : (lead ++ f.opening ++ f.body).length =
      (lead ++ f.opening).length + f.body.length := List.length_append
  rw [IsInside, delimiters_text, hclosing]
  exact exists_pair_iff (p := ⟨(lead ++ f.opening).length, f.body⟩) hbefore hafter

end ArchSketch.Reply

namespace ArchSketch

open Reply

/-- The bodies of tagged fences among the delimiters of a reply. Each lies between two neighbouring
delimiters, of which the second closes its fence. The two are a pair if the fence starts at an
opening delimiter and no delimiter is left in the rest of its tag's line; in general it is the
number of delimiters up to the tag and in the rest of the line that has to be odd. -/
theorem bodies_between_delimiters (t : List Char) :
    (bodies t).map Passage.text = fencedBlocks t ∧
      ∀ p ∈ bodies t, ∃ (lead : List Char) (f : Fence) (rest : List Char),
        t = lead ++ f.text ++ rest ∧ p = ⟨(lead ++ f.opening).length, f.body⟩ ∧
        (∃ o c, [o, c] <:+: delimiters t ∧ p.IsBetween o c ∧ c = p.place + p.text.length) ∧
        (IsInside t p ↔
          (Odd (delimiters (lead ++ fence)).length ↔ Even (delimiters f.info).length)) := by
  refine ⟨map_text_bodiesFrom 0 0 t, ?_⟩
  intro p hp
  obtain ⟨lead, f, rest, rfl, rfl⟩ := exists_fence_of_mem_bodiesFrom hp
  rw [Nat.zero_add]
  refine ⟨lead, f, rest, rfl, rfl, ?_, ?_⟩
  · obtain ⟨x, o, hx⟩ : ∃ x o, delimiters (lead ++ f.opening) = x ++ [o] :=
      (List.eq_nil_or_concat' _).resolve_left (delimiters_opening_ne_nil lead f)
    refine ⟨o, (lead ++ f.opening ++ f.body).length, ?_, ?_, List.length_append⟩
    · rw [delimiters_text, hx]
      exact ⟨x, delimitersFrom (lead ++ f.text).length 0 rest, by simp⟩
    · have ho : o ∈ delimiters (lead ++ f.opening) := by simp [hx]
      have hbounds := (bounds_of_mem_delimitersFrom ho).2
      exact ⟨by simpa using hbounds, by simp [Nat.add_assoc]⟩
  · rw [isInside_iff, length_delimiters_opening, Nat.odd_add]

/-- A fence without a tag that is closed on its line, where a tag follows. -/
def crossedReply : List Char := "```json```c4\nprose\n```plantuml\nX\n```".toList

theorem not_isInside_crossedReply :
    ¬ ∀ t, Even (delimiters t).length → ∀ p ∈ bodies t, IsInside t p := by
  intro h
  have hprose : (⟨13, "prose\n".toList⟩ : Passage) ∈ bodies crossedReply := by decide +kernel
  have hinside := h crossedReply (by decide +kernel) _ hprose
  revert hinside
  decide +kernel

end ArchSketch
