import ArchSketch.Text.Search
import Mathlib

/-! Where a search stops, and where one text stands in another. What a search has passed over is
described place by place: at none of them did the pattern fit what came from there on. -/
namespace ArchSketch.Text

variable {α : Type} {p : Pattern α} {a b r s t w : List Char} {c : Char} {x : α}
  {atLineStart : Bool}

def opensLine (atLineStart : Bool) : List Char → Bool
  | [] => atLineStart
  | c :: t => opensLine (c == '\n') t

@[simp] theorem opensLine_concat (atLineStart : Bool) (t : List Char) (c : Char) :
    opensLine atLineStart (t ++ [c]) = (c == '\n') := by
  induction t generalizing atLineStart with
  | nil => rfl
  | cons d t ih => exact ih _

/-- The pattern fits at no place in `t`, when `s` comes after it. -/
def Pattern.Passes (p : Pattern α) (atLineStart : Bool) : (t s : List Char) → Prop
  | [], _ => True
  | c :: t, s => p atLineStart (c :: t ++ s) = none ∧ Passes p (c == '\n') t s

instance decidablePasses (p : Pattern α) :
    (atLineStart : Bool) → (t s : List Char) → Decidable (p.Passes atLineStart t s)
  | _, [], _ => .isTrue trivial
  | atLineStart, c :: t, s =>
    have := decidablePasses p (c == '\n') t s
    inferInstanceAs (Decidable (p atLineStart (c :: t ++ s) = none ∧ p.Passes (c == '\n') t s))

theorem passes_append : p.Passes atLineStart (a ++ b) s ↔
    p.Passes atLineStart a (b ++ s) ∧ p.Passes (opensLine atLineStart a) b s := by
  induction a generalizing atLineStart with
  | nil => simp [Pattern.Passes, opensLine]
  | cons c a ih => simp [Pattern.Passes, opensLine, ih, and_assoc]

theorem Pattern.Passes.eq_none (h : p.Passes atLineStart (a ++ r) s) (hr : r ≠ []) :
    p (opensLine atLineStart a) (r ++ s) = none := by
  obtain ⟨c, r, rfl⟩ := List.exists_cons_of_ne_nil hr
  exact (passes_append.1 h).2.1

theorem Pattern.Passes.imp {β : Type} {q : Pattern β} (h : p.Passes atLineStart t s)
    (hpq : ∀ {b t}, p b t = none → q b t = none) : q.Passes atLineStart t s := by
  induction t generalizing atLineStart with
  | nil => trivial
  | cons c t ih => exact ⟨hpq h.1, ih h.2⟩

theorem passes_of_forall
    (h : ∀ a r, t = a ++ r → r ≠ [] → p (opensLine atLineStart a) (r ++ s) = none) :
    p.Passes atLineStart t s := by
  induction t generalizing atLineStart with
  | nil => trivial
  | cons c t ih => exact ⟨h [] _ rfl (by simp), ih fun a r hr => h (c :: a) r (by simp [hr])⟩

theorem find?_append (h : p.Passes atLineStart t s) : find? p atLineStart (t ++ s) =
    (find? p (opensLine atLineStart t) s).map fun found => (t ++ found.1, found.2) := by
  induction t generalizing atLineStart with
  | nil => simp [opensLine]
  | cons c t ih =>
    obtain ⟨hc, ht⟩ := h
    rw [List.cons_append] at hc
    rw [List.cons_append, find?, hc]
    dsimp only
    rw [ih ht, opensLine, Option.map_map]
    rfl

theorem find?_of_fits (h : p atLineStart t = some x) : find? p atLineStart t = some ([], x) := by
  cases t <;> simp [find?, h]

theorem find?_eq_some_iff : find? p atLineStart t = some (a, x) ↔
    ∃ r, t = a ++ r ∧ p (opensLine atLineStart a) r = some x ∧ p.Passes atLineStart a r := by
  constructor
  · intro h
    induction t generalizing atLineStart a with
    | nil =>
      obtain ⟨y, hy, hxy⟩ := Option.map_eq_some_iff.1 (h : (p atLineStart []).map _ = _)
      obtain ⟨rfl, rfl⟩ := Prod.mk.inj hxy
      exact ⟨[], rfl, hy, trivial⟩
    | cons c t ih =>
      rw [find?] at h
      cases hc : p atLineStart (c :: t) with
      | some y =>
        rw [hc] at h
        obtain ⟨rfl, rfl⟩ := Prod.mk.inj (Option.some.inj h)
        exact ⟨c :: t, rfl, hc, trivial⟩
      | none =>
        rw [hc] at h
        obtain ⟨⟨b, y⟩, hfound, hxy⟩ := Option.map_eq_some_iff.1 h
        obtain ⟨rfl, rfl⟩ := Prod.mk.inj hxy
        obtain ⟨r, rfl, hr, hb⟩ := ih hfound
        exact ⟨r, rfl, hr, hc, hb⟩
  · rintro ⟨r, rfl, hr, ha⟩
    rw [find?_append ha, find?_of_fits hr]
    simp

/-- Where the search starts matters only to what fits there. -/
theorem find?_congr (h : p true t = p false t) : find? p true t = find? p false t := by
  cases t <;> simp [find?, h]

theorem find?_eq_none_iff : find? p atLineStart t = none ↔
    p.Passes atLineStart t [] ∧ p (opensLine atLineStart t) [] = none := by
  induction t generalizing atLineStart with
  | nil => simp [find?, Pattern.Passes, opensLine]
  | cons c t ih =>
    rw [find?, Pattern.Passes, opensLine]
    cases hc : p atLineStart (c :: t) with
    | some y => simp [hc]
    | none => simp [hc, ih]

/-! The text before the first place where a pattern fits. -/

theorem exists_eq_textBefore_append (p : Pattern α) (t : List Char) :
    ∃ r, t = textBefore p t ++ r ∧ p.Passes true (textBefore p t) r := by
  unfold textBefore
  cases h : find? p true t with
  | none => exact ⟨[], by simp, (find?_eq_none_iff.1 h).1⟩
  | some found =>
    obtain ⟨r, ht, -, hpasses⟩ := find?_eq_some_iff.1 h
    exact ⟨r, ht, hpasses⟩

theorem textBefore_append (h : p.Passes true a r) (hr : p (opensLine true a) r ≠ none) :
    textBefore p (a ++ r) = a := by
  obtain ⟨x, hx⟩ := Option.ne_none_iff_exists'.1 hr
  rw [textBefore, find?_eq_some_iff.2 ⟨r, rfl, hx, h⟩]
  rfl

theorem length_le_textBefore (h : p.Passes true a r) :
    a.length ≤ (textBefore p (a ++ r)).length := by
  rw [textBefore, find?_append h]
  cases find? p (opensLine true a) r <;> simp

/-! Texts that stand in others, when a character that they do not have comes between. -/

theorem prefix_append_cons (hw : c ∉ w.dropLast) (h : w <+: a ++ c :: b) : w <+: a ++ [c] := by
  have hc : a ++ [c] <+: a ++ c :: b := ⟨b, by simp⟩
  rcases List.prefix_or_prefix_of_prefix h hc with h | ⟨v, rfl⟩
  · exact h
  · cases v with
    | nil => simp
    | cons d v => simp at hw

theorem prefix_of_prefix_append_cons (hw : c ∉ w) (h : w <+: a ++ c :: b) : w <+: a := by
  rcases List.prefix_concat_iff.1 (prefix_append_cons (mt List.mem_of_mem_dropLast hw) h) with
    rfl | h
  · simp at hw
  · exact h

theorem infix_append_cons (hw : c ∉ w.dropLast) (h : w <:+: a ++ c :: b) :
    w <:+: a ++ [c] ∨ w <:+: b := by
  induction a with
  | nil =>
    rcases List.infix_cons_iff.1 h with h | h
    · exact .inl (prefix_append_cons (a := []) hw h).isInfix
    · exact .inr h
  | cons d a ih =>
    rcases List.infix_cons_iff.1 h with h | h
    · exact .inl (prefix_append_cons (a := d :: a) hw h).isInfix
    · exact (ih h).imp_left fun h => List.infix_cons h

theorem infix_of_infix_append_cons (hw : c ∉ w) (h : w <:+: a ++ c :: b) : w <:+: a ∨ w <:+: b := by
  rcases infix_append_cons (mt List.mem_of_mem_dropLast hw) h with h | h
  · rcases List.infix_concat_iff.1 h with hsuffix | h
    · rcases List.suffix_concat_iff.1 hsuffix with rfl | ⟨v, rfl, -⟩
      · exact .inl List.nil_infix
      · simp at hw
    · exact .inl h
  · exact .inr h

/-! Texts that stand in others, when a character that only begins them comes between. -/

theorem prefix_of_prefix_append_head (hw : c ∉ w.tail) (ha : a ≠ []) (h : w <+: a ++ c :: b) :
    w <+: a := by
  cases w with
  | nil => exact List.nil_prefix
  | cons d w =>
    obtain ⟨e, a, rfl⟩ := List.exists_cons_of_ne_nil ha
    rw [List.cons_append, List.cons_prefix_cons] at h
    rw [List.cons_prefix_cons]
    exact ⟨h.1, prefix_of_prefix_append_cons hw h.2⟩

theorem infix_append_head (hw : c ∉ w.tail) (h : w <:+: a ++ c :: b) :
    w <:+: a ∨ w <:+: c :: b := by
  induction a with
  | nil => exact .inr h
  | cons d a ih =>
    rcases List.infix_cons_iff.1 h with h | h
    · left
      exact (prefix_of_prefix_append_head (a := d :: a) hw (by simp) h).isInfix
    · exact (ih h).imp_left List.infix_cons

end ArchSketch.Text
