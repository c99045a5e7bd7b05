import ArchSketch.Proofs.Text.Words
import ArchSketch.Text.Case

/-! Lower case. The mapping looks past the character at hand, but never past a blank, so the words
of a text are lowercased one by one. And it leads only to characters that it leaves alone, in
whatever text they stand. -/
namespace ArchSketch.Text

variable {a t : List Char} {c d : Char} {n m : Nat} {afterCased : Bool}

/-! A text is lowercased word by word. -/

theorem lowering_of_isBlank (h : isBlank c = true) :
    isCased c = false ∧ isCaseIgnorable c = false ∧ c ≠ 'Σ' ∧ lowerChar c = [c] :=
  forall_isBlank
    (fun c => isCased c = false ∧ isCaseIgnorable c = false ∧ c ≠ 'Σ' ∧ lowerChar c = [c])
    (by decide +kernel) h

theorem meetsCased_append_cons (hc : isBlank c = true) (a t : List Char) :
    meetsCased (a ++ c :: t) = meetsCased a := by
  obtain ⟨hcased, hignorable, -⟩ := lowering_of_isBlank hc
  unfold meetsCased
  rw [List.find?_append, List.find?_cons, hignorable]
  cases a.find? (!isCaseIgnorable ·) with
  | none => simp [hcased]
  | some d => rfl

theorem lowerFrom_append_cons (hc : isBlank c = true) (a t : List Char) :
    lowerFrom afterCased (a ++ c :: t) = lowerFrom afterCased a ++ c :: lower t := by
  induction a generalizing afterCased with
  | nil =>
    obtain ⟨hcased, hignorable, hne, hlow⟩ := lowering_of_isBlank hc
    simp [lowerFrom, lower, hcased, hignorable, hne, hlow]
  | cons d a ih =>
    simp only [List.cons_append, lowerFrom, meetsCased_append_cons hc, ih, List.append_assoc]

theorem lower_append_cons (hc : isBlank c = true) (a t : List Char) :
    lower (a ++ c :: t) = lower a ++ c :: lower t := lowerFrom_append_cons hc a t

/-! What the mapping leads to. -/

namespace Case

variable {r q : Run}

theorem Run.image?_eq_some_iff : r.image? n = some m ↔
    r.first ≤ n ∧ n ≤ r.last ∧ (n - r.first) % r.step = 0 ∧ m = r.target + (n - r.first) := by
  simp only [Run.image?, Option.ite_none_right_eq_some, Bool.and_eq_true, decide_eq_true_eq,
    beq_iff_eq, Option.some.injEq]
  grind

/-- Where a run leads another one does not begin, because they lie apart or because they take turns.
All pairs of runs are looked at, so the tests are those that are quick to evaluate. -/
def Run.avoids (r q : Run) : Bool :=
  Nat.blt (r.target + (r.last - r.first)) q.first || Nat.blt q.last r.target ||
    (Nat.beq r.step 2 || Nat.beq r.first r.last) && (Nat.beq q.step 2 || Nat.beq q.first q.last) &&
      Nat.beq ((r.target + q.first) % 2) 1

theorem Run.image?_eq_none_of_avoids (h : r.avoids q = true) (hm : r.image? n = some m) :
    q.image? m = none := by
  obtain ⟨hfirst, hlast, hstep, rfl⟩ := image?_eq_some_iff.1 hm
  rw [Option.eq_none_iff_forall_ne_some]
  intro k hk
  obtain ⟨hfirst', hlast', hstep', -⟩ := image?_eq_some_iff.1 hk
  simp only [avoids, Bool.or_eq_true, Bool.and_eq_true, Nat.blt_eq, Nat.beq_eq] at h
  rcases h with (h | h) | ⟨⟨hr, hq⟩, hparity⟩
  · omega
  · omega
  · have hn : (n - r.first) % 2 = 0 := by
      rcases hr with hr | hr
      · rwa [hr] at hstep
      · omega
    have hm : (r.target + (n - r.first) - q.first) % 2 = 0 := by
      rcases hq with hq | hq
      · rwa [hq] at hstep'
      · omega
    omega

theorem all_avoids : (runs.all fun r => runs.all fun q => r.avoids q) = true := by decide +kernel

theorem targets_of_mem_runs : ∀ r ∈ runs,
    let highest := r.target + (r.last - r.first)
    (highest < 0xD800 ∨ 0xDFFF < r.target ∧ highest < 0x110000) ∧
      (0x80 ≤ r.target ∨ r.first = r.last ∧ r.target = 'k'.toNat) ∧
      (highest < 'İ'.toNat ∨ 'İ'.toNat < r.target) ∧
      ∀ n ∈ blanks, n < r.target ∨ highest < n := by
  decide +kernel

theorem findSome?_image?_eq_none (h : r ∈ runs) (hm : r.image? n = some m) :
    runs.findSome? (Run.image? · m) = none := by
  rw [List.findSome?_eq_none_iff]
  intro q hq
  have havoids := List.all_eq_true.1 (List.all_eq_true.1 all_avoids r h) q hq
  exact Run.image?_eq_none_of_avoids havoids hm

theorem lowerChar_image (h : r ∈ runs) (hm : r.image? n = some m) :
    lowerChar (Char.ofNat m) = [Char.ofNat m] ∧ isBlank (Char.ofNat m) = false := by
  obtain ⟨hvalid, hletter, hdotted, hblanks⟩ := targets_of_mem_runs r h
  obtain ⟨hfirst, hlast, -, heq⟩ := Run.image?_eq_some_iff.1 hm
  have hcode : (Char.ofNat m).toNat = m := by
    rw [Char.toNat_ofNat, if_pos]
    unfold Nat.isValidChar
    omega
  constructor
  · by_cases hsmall : m < 0x80
    · obtain rfl : m = 'k'.toNat := by omega
      decide
    · have hne : Char.ofNat m ≠ 'İ' := by
        intro he
        rw [he] at hcode
        omega
      rw [lowerChar, hcode, if_neg hsmall, if_neg (by simpa using hne),
        findSome?_image?_eq_none h hm]
      rfl
  · rw [← Bool.not_eq_true]
    intro hblank
    have hmem := toNat_mem_blanks hblank
    rw [hcode] at hmem
    have := hblanks m hmem
    omega

end Case

theorem toLower_of_lt (h : c.toNat < 0x80) :
    c.toLower.toNat < 0x80 ∧ c.toLower.toLower = c.toLower ∧ isBlank c.toLower = isBlank c := by
  have hall : ∀ n < 0x80, let c := Char.ofNat n
      c.toLower.toNat < 0x80 ∧ c.toLower.toLower = c.toLower ∧ isBlank c.toLower = isBlank c := by
    decide
  simpa using hall c.toNat h

/-- What stands for a character in lower case is left alone, and it is blank as the character is. -/
theorem lowerChar_spec (hd : d ∈ lowerChar c) : lowerChar d = [d] ∧ isBlank d = isBlank c := by
  by_cases hblank : isBlank c = true
  · obtain ⟨-, -, -, hlow⟩ := lowering_of_isBlank hblank
    obtain rfl := List.mem_singleton.1 (hlow ▸ hd)
    exact ⟨hlow, rfl⟩
  rw [Bool.not_eq_true] at hblank
  rw [hblank]
  by_cases hsmall : c.toNat < 0x80
  · obtain ⟨hsmall', hidem, hblank'⟩ := toLower_of_lt hsmall
    rw [lowerChar, if_pos hsmall, List.mem_singleton] at hd
    subst hd
    exact ⟨by rw [lowerChar, if_pos hsmall', hidem], hblank'.trans hblank⟩
  by_cases hdotted : c = 'İ'
  · have hlow : lowerChar c = ['i', '\u0307'] := by
      rw [hdotted]
      rfl
    rw [hlow] at hd
    rcases List.mem_pair.1 hd with rfl | rfl
    · exact ⟨rfl, rfl⟩
    · exact ⟨by decide, rfl⟩
  -- all other characters are read off the table of runs
  have hlow : lowerChar c =
      [((Case.runs.findSome? (Case.Run.image? · c.toNat)).map Char.ofNat).getD c] := by
    rw [lowerChar, if_neg hsmall, if_neg (by simpa using hdotted)]
  cases hfound : Case.runs.findSome? (Case.Run.image? · c.toNat) with
  | none =>
    rw [hfound] at hlow
    obtain rfl := List.mem_singleton.1 (hlow ▸ hd)
    exact ⟨hlow, hblank⟩
  | some m =>
    rw [hlow, hfound] at hd
    obtain rfl := List.mem_singleton.1 hd
    obtain ⟨r, hr, hm⟩ := List.exists_of_findSome?_eq_some hfound
    exact Case.lowerChar_image hr hm

theorem exists_of_mem_lowerFrom (hd : d ∈ lowerFrom afterCased t) :
    ∃ c ∈ t, lowerChar d = [d] ∧ isBlank d = isBlank c := by
  induction t generalizing afterCased with
  | nil => contradiction
  | cons c t ih =>
    rw [lowerFrom, List.mem_append] at hd
    rcases hd with hd | hd
    · refine ⟨c, List.mem_cons_self, ?_⟩
      split at hd
      · rename_i hsigma
        obtain rfl := beq_iff_eq.1 hsigma
        rw [List.mem_singleton] at hd
        split at hd <;> subst hd <;> exact ⟨by decide, by decide⟩
      · exact lowerChar_spec hd
    · obtain ⟨c, hc, hspec⟩ := ih hd
      exact ⟨c, List.mem_cons_of_mem _ hc, hspec⟩

theorem lowerFrom_of_forall (h : ∀ c ∈ t, lowerChar c = [c]) : lowerFrom afterCased t = t := by
  induction t generalizing afterCased with
  | nil => rfl
  | cons c t ih =>
    obtain ⟨hc, ht⟩ := List.forall_mem_cons.1 h
    have hne : c ≠ 'Σ' := by
      rintro rfl
      revert hc
      decide
    simp [lowerFrom, hne, hc, ih ht]

theorem isBlank_of_mem_lower (h : ∀ c ∈ t, isBlank c = false) (hd : d ∈ lower t) :
    isBlank d = false := by
  obtain ⟨c, hc, -, hblank⟩ := exists_of_mem_lowerFrom hd
  rw [hblank, h c hc]

theorem lowerFrom_ne_nil (h : t ≠ []) : lowerFrom afterCased t ≠ [] := by
  obtain ⟨c, t, rfl⟩ := List.exists_cons_of_ne_nil h
  have hlow : lowerChar c ≠ [] := by
    unfold lowerChar
    split
    · simp
    · split <;> simp
  rw [lowerFrom]
  split <;> simp [hlow]

theorem lower_ne_nil (h : t ≠ []) : lower t ≠ [] := lowerFrom_ne_nil h

/-- The words of a text are lowercased one by one. -/
theorem words_lower (t : List Char) : words (lower t) = (words t).map lower := by
  have hword (w : List Char) (hw : ∀ c ∈ w, isBlank c = false) :
      words (lower w) = (words w).map lower := by
    by_cases hne : w = []
    · subst hne
      rfl
    · rw [words_of_forall_not hne hw, List.map_singleton]
      exact words_of_forall_not (lower_ne_nil hne) fun d hd => isBlank_of_mem_lower hw hd
  induction t using induction_on_blanks with
  | last w hw => exact hword w hw
  | cons w c t hw hc ih =>
    rw [lower_append_cons hc, words_append_cons hc, words_append_cons hc, List.map_append, ih,
      hword w hw]

theorem not_isBlank_of_mem_head?_lower (h : ∀ c ∈ t.head?, isBlank c = false)
    (hd : d ∈ (lower t).head?) : isBlank d = false := by
  induction t using induction_on_blanks with
  | last w hw => exact isBlank_of_mem_lower hw (List.mem_of_mem_head? hd)
  | cons w c t hw hc =>
    have hne : w ≠ [] := by
      rintro rfl
      simp [h c rfl] at hc
    rw [lower_append_cons hc, List.head?_append_of_ne_nil _ (lower_ne_nil hne)] at hd
    exact isBlank_of_mem_lower hw (List.mem_of_mem_head? hd)

theorem not_isBlank_of_mem_getLast?_lower (h : ∀ c ∈ t.getLast?, isBlank c = false)
    (hd : d ∈ (lower t).getLast?) : isBlank d = false := by
  induction t using induction_on_blanks with
  | last w hw => exact isBlank_of_mem_lower hw (List.mem_of_mem_getLast? hd)
  | cons w c t hw hc ih =>
    have hne : t ≠ [] := by
      rintro rfl
      simp [h c (by simp)] at hc
    have hlast (u v : List Char) (hv : v ≠ []) : (u ++ c :: v).getLast? = v.getLast? := by
      rw [List.append_cons, List.getLast?_append_of_ne_nil _ hv]
    rw [hlast w t hne] at h
    rw [lower_append_cons hc, hlast _ _ (lower_ne_nil hne)] at hd
    exact ih h hd

theorem lower_of_forall (h : ∀ c ∈ t, lowerChar c = [c]) : lower t = t := lowerFrom_of_forall h

end ArchSketch.Text
