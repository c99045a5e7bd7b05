import ArchSketch.Proofs.Text.Trim
import ArchSketch.Text.Case

/-! Words met in any letter case: what a match is, and that blanks at the end of the text never
decide whether there is one. -/
namespace ArchSketch.Text

variable {word t r u : List Char} {words : List (List Char)}

theorem afterWord?_eq_some_iff :
    afterWord? word t = some r ↔ ∃ p, t = p ++ r ∧ p.map fold = word := by
  induction word generalizing t with
  | nil => simp [afterWord?, eq_comm]
  | cons w word ih =>
    cases t with
    | nil => simp [afterWord?]
    | cons c t =>
      rw [afterWord?]
      split
      · rename_i hc
        rw [ih]
        constructor
        · rintro ⟨p, rfl, rfl⟩
          exact ⟨c :: p, rfl, by simpa using hc⟩
        · rintro ⟨p, ht, hp⟩
          obtain ⟨d, p, rfl, -, hp⟩ := List.map_eq_cons_iff.1 hp
          exact ⟨p, (List.cons.inj ht).2, hp⟩
      · rename_i hc
        refine ⟨fun h => absurd h (by simp), ?_⟩
        rintro ⟨p, ht, hp⟩
        obtain ⟨d, p, rfl, hd, -⟩ := List.map_eq_cons_iff.1 hp
        exact absurd (by simpa [(List.cons.inj ht).1] using hd) hc

theorem afterWord?_eq_none_of_head (hword : word ≠ [])
    (h : ∀ c ∈ t.head?, word.head? ≠ some (fold c)) : afterWord? word t = none := by
  cases word with
  | nil => exact absurd rfl hword
  | cons w word =>
    cases t with
    | nil => rfl
    | cons c t =>
      have hc : w ≠ fold c := by simpa using h c rfl
      rw [afterWord?, if_neg (by simpa using hc.symm)]

theorem getD_afterWord?_append {p : List Char} (hword : word ≠ [])
    (hp : p.map fold ∈ [[], word]) (h : ∀ c ∈ r.head?, word.head? ≠ some (fold c)) :
    (afterWord? word (p ++ r)).getD (p ++ r) = r := by
  rw [List.mem_cons, List.mem_singleton] at hp
  rcases hp with hp | hp
  · rw [List.map_eq_nil_iff.1 hp, List.nil_append, afterWord?_eq_none_of_head hword h]
    rfl
  · rw [afterWord?_eq_some_iff.2 ⟨p, rfl, hp⟩]
    rfl

theorem exists_eq_append_getD_afterWord? (word t : List Char) :
    ∃ p, t = p ++ (afterWord? word t).getD t ∧ p.map fold ∈ [[], word] := by
  cases h : afterWord? word t with
  | none => exact ⟨[], rfl, by simp⟩
  | some r =>
    obtain ⟨p, ht, hp⟩ := afterWord?_eq_some_iff.1 h
    exact ⟨p, ht, by simp [hp]⟩

theorem exists_of_afterAny?_eq_some :
    afterAny? words t = some r → ∃ p, t = p ++ r ∧ p.map fold ∈ words := by
  intro h
  obtain ⟨word, hw, h⟩ := List.exists_of_findSome?_eq_some h
  obtain ⟨p, ht, rfl⟩ := afterWord?_eq_some_iff.1 h
  exact ⟨p, ht, hw⟩

/-- Words of which none begins another leave no choice of the word that is met. -/
theorem afterAny?_of_mem {p : List Char} (hwords : ∀ a ∈ words, ∀ b ∈ words, a <+: b → a = b)
    (hp : p.map fold ∈ words) : afterAny? words (p ++ r) = some r := by
  have hsome : (afterAny? words (p ++ r)).isSome := by
    rw [afterAny?, List.isSome_findSome?, List.any_eq_true]
    exact ⟨_, hp, by rw [afterWord?_eq_some_iff.2 ⟨p, rfl, rfl⟩]; rfl⟩
  obtain ⟨s, hs⟩ := Option.isSome_iff_exists.1 hsome
  obtain ⟨q, hq, hqw⟩ := exists_of_afterAny?_eq_some hs
  have hlen : p.length = q.length := by
    have hprefix : p <+: q ∨ q <+: p :=
      List.prefix_or_prefix_of_prefix (List.prefix_append p r) (hq ▸ List.prefix_append q s)
    rcases hprefix with h | h
    · simpa using congrArg List.length (hwords _ hp _ hqw (h.map fold))
    · simpa using (congrArg List.length (hwords _ hqw _ hp (h.map fold))).symm
  rw [hs, (List.append_inj hq hlen).2]

theorem fold_of_isBlank {c : Char} (h : isBlank c = true) : fold c = c := by
  have hlong : c ≠ 'ſ' := by rintro rfl; revert h; decide
  have hkelvin : c ≠ '\u212A' := by rintro rfl; revert h; decide
  have hupper : ¬ ('A' ≤ c ∧ c ≤ 'Z') := by
    rintro ⟨ha, hz⟩
    rw [Char.le_def, UInt32.le_iff_toNat_le] at ha hz
    simp only [isBlank, Bool.or_eq_true, Bool.and_eq_true, decide_eq_true_eq, beq_iff_eq,
      Char.toNat] at h
    change 65 ≤ c.val.toNat at ha
    change c.val.toNat ≤ 90 at hz
    omega
  have hlower : c.toLower = c := by
    unfold Char.toLower
    rw [dif_neg]
    exact hupper
  unfold fold
  rw [if_neg (by simpa using hlong), if_neg (by simpa using hkelvin), hlower]

theorem fold_eq_self_or_isLower (c : Char) : fold c = c ∨ (fold c).isLower = true := by
  unfold fold
  split
  · exact .inr rfl
  · split
    · exact .inr rfl
    · unfold Char.toLower
      split
      next hc =>
        obtain ⟨ha, hz⟩ := hc
        rw [ge_iff_le, UInt32.le_iff_toNat_le] at ha
        rw [UInt32.le_iff_toNat_le] at hz
        change 65 ≤ c.val.toNat at ha
        change c.val.toNat ≤ 90 at hz
        have hsum : (c.val + 32).toNat = c.val.toNat + 32 := by
          rw [UInt32.toNat_add]
          exact Nat.mod_eq_of_lt (by change c.val.toNat + 32 < 2 ^ 32; omega)
        right
        change (decide (97 ≤ c.val + 32) && decide (c.val + 32 ≤ 122)) = true
        rw [Bool.and_eq_true, decide_eq_true_eq, decide_eq_true_eq, UInt32.le_iff_toNat_le,
          UInt32.le_iff_toNat_le, hsum]
        change 97 ≤ c.val.toNat + 32 ∧ c.val.toNat + 32 ≤ 122
        omega
      next => exact .inl rfl

theorem eq_of_map_fold (h : t.map fold = word) (hword : ∀ c ∈ word, c.isLower = false) :
    t = word := by
  subst h
  refine (List.map_id t).symm.trans (List.map_congr_left fun c hc => ?_)
  rcases fold_eq_self_or_isLower c with hself | hlower
  · exact hself.symm
  · rw [hword _ (List.mem_map_of_mem hc)] at hlower
    contradiction

theorem not_mem_of_map_fold {c : Char} (ht : t.map fold ∈ words)
    (hc : ∀ word ∈ words, fold c ∉ word) : c ∉ t :=
  fun hm => hc _ ht (List.mem_map_of_mem hm)

def NoBlanks (word : List Char) : Prop := ∀ c ∈ word, isBlank c = false

instance : DecidablePred NoBlanks := fun word => List.decidableBAll _ word

theorem noBlanks_cons {c : Char} : NoBlanks (c :: word) ↔ isBlank c = false ∧ NoBlanks word :=
  List.forall_mem_cons

theorem trimStart_append_of_noBlanks (hne : word ≠ []) (h : NoBlanks word) (t : List Char) :
    trimStart (word ++ t) = word ++ t := by
  cases word with
  | nil => exact absurd rfl hne
  | cons c word => exact trimStart_cons_of_not_isBlank (noBlanks_cons.1 h).1

theorem afterWord?_trimEnd (h : NoBlanks word) :
    afterWord? word (trimEnd t) = (afterWord? word t).map trimEnd := by
  induction word generalizing t with
  | nil => simp [afterWord?]
  | cons w word ih =>
    obtain ⟨hw, h⟩ := noBlanks_cons.1 h
    cases t with
    | nil => rfl
    | cons c t =>
      rw [trimEnd_cons]
      split
      · rename_i hc
        rw [Bool.and_eq_true] at hc
        have hne : fold c ≠ w := by
          rintro rfl
          rw [fold_of_isBlank hc.2, hc.2] at hw
          contradiction
        simp [afterWord?, hne]
      · simp only [afterWord?]
        split
        · exact ih h
        · rfl

theorem getD_afterWord?_trimEnd (h : NoBlanks word) (t : List Char) :
    (afterWord? word (trimEnd t)).getD (trimEnd t) = trimEnd ((afterWord? word t).getD t) := by
  rw [afterWord?_trimEnd h]
  cases afterWord? word t <;> rfl

theorem afterAny?_trimEnd (h : ∀ word ∈ words, NoBlanks word) :
    afterAny? words (trimEnd t) = (afterAny? words t).map trimEnd := by
  induction words with
  | nil => rfl
  | cons word words ih =>
    obtain ⟨hw, h⟩ := List.forall_mem_cons.1 h
    simp only [afterAny?, List.findSome?_cons, afterWord?_trimEnd hw] at ih ⊢
    cases afterWord? word t with
    | none => exact ih h
    | some r => rfl

end ArchSketch.Text
