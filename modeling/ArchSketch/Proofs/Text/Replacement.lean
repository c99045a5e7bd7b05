import ArchSketch.Proofs.Text.Search

/-! Replacing every occurrence of a text. A character that the replaced text does not have parts
what is replaced before it from what is replaced after it, so a text that is put together from
parts with such characters at their borders is replaced part by part. -/
namespace ArchSketch.Text

variable {a b old new t : List Char} {c : Char}

@[simp] theorem substitute_nil (old new : List Char) : substitute old new [] = [] := rfl

theorem substitute_cons (h : ¬ old <+: c :: t) :
    substitute old new (c :: t) = c :: substitute old new t := by
  rw [substitute, substituteFrom, if_neg (mt List.isPrefixOf_iff_prefix.1 h), substitute]

theorem substituteFrom_length_append (a t : List Char) :
    substituteFrom old new a.length (a ++ t) = substitute old new t := by
  induction a with
  | nil => rfl
  | cons c a ih => exact ih

theorem substitute_append_self (h : old ≠ []) (t : List Char) :
    substitute old new (old ++ t) = new ++ substitute old new t := by
  obtain ⟨c, old, rfl⟩ := List.exists_cons_of_ne_nil h
  have hfits : (c :: old).isPrefixOf (c :: (old ++ t)) = true :=
    List.isPrefixOf_iff_prefix.2 (List.prefix_append (c :: old) t)
  rw [List.cons_append, substitute, substituteFrom, if_pos hfits]
  exact congrArg _ (substituteFrom_length_append old t)

theorem substitute_self (h : old ≠ []) : substitute old new old = new := by
  simpa using substitute_append_self (t := []) h

theorem substitute_of_not_infix (h : ¬ old <:+: t) : substitute old new t = t := by
  induction t with
  | nil => rfl
  | cons c t ih =>
    rw [substitute_cons (mt List.IsPrefix.isInfix h), ih (mt List.infix_cons h)]

theorem substitute_append_cons (hne : old ≠ []) (hc : c ∉ old) (a t : List Char) :
    substitute old new (a ++ c :: t) = substitute old new a ++ c :: substitute old new t := by
  by_cases hold : old <+: a ++ c :: t
  · obtain ⟨b, hb⟩ := prefix_of_prefix_append_cons hc hold
    have hshorter : b.length < a.length := by
      have := List.length_pos_iff.2 hne
      rw [← hb, List.length_append]
      omega
    rw [← hb, List.append_assoc, substitute_append_self hne, substitute_append_self hne,
      substitute_append_cons hne hc b t, List.append_assoc]
  · cases a with
    | nil => exact substitute_cons hold
    | cons d a =>
      have ha : ¬ old <+: d :: a := fun h => hold (h.trans (List.prefix_append _ _))
      rw [List.cons_append] at hold ⊢
      rw [substitute_cons hold, substitute_cons ha, substitute_append_cons hne hc a t,
        List.cons_append]
termination_by a.length

/-- At the border of the two texts stands a character that `old` does not have. -/
def IsParted (old a b : List Char) : Prop :=
  (∃ c ∈ a.getLast?, c ∉ old) ∨ ∃ c ∈ b.head?, c ∉ old

theorem substitute_append (hne : old ≠ []) (h : IsParted old a b) :
    substitute old new (a ++ b) = substitute old new a ++ substitute old new b := by
  rcases h with ⟨c, hlast, hc⟩ | ⟨c, hfirst, hc⟩
  · obtain ⟨a, rfl⟩ := List.getLast?_eq_some_iff.1 hlast
    rw [List.append_assoc, List.singleton_append, substitute_append_cons hne hc,
      substitute_append_cons hne hc, substitute_nil, List.append_assoc, List.singleton_append]
  · obtain ⟨b, rfl⟩ := List.head?_eq_some_iff.1 hfirst
    have hstart : substitute old new (c :: b) = c :: substitute old new b :=
      substitute_append_cons hne hc [] b
    rw [substitute_append_cons hne hc, hstart]

theorem substitute_flatten (hne : old ≠ []) {parts : List (List Char)}
    (h : parts.IsChain (IsParted old)) :
    substitute old new parts.flatten = (parts.map (substitute old new)).flatten := by
  induction parts with
  | nil => rfl
  | cons a parts ih =>
    cases parts with
    | nil => simp
    | cons b parts =>
      obtain ⟨hab, hparts⟩ := List.isChain_cons_cons.1 h
      have hborder : IsParted old a (b :: parts).flatten := by
        refine hab.imp_right fun ⟨c, hc, hold⟩ => ⟨c, ?_, hold⟩
        obtain ⟨b, rfl⟩ := List.head?_eq_some_iff.1 hc
        rfl
      rw [List.flatten_cons, substitute_append hne hborder, ih hparts]
      rfl

end ArchSketch.Text
