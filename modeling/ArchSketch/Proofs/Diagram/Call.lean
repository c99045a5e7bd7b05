import ArchSketch.Diagram.Document
import ArchSketch.Proofs.Diagram.Token
import ArchSketch.Proofs.Text.Lines

/-! Calls across the border of two texts. A call may have its bracket lines later, so texts may be
put together freely only where a character stands that neither belongs to a word nor is blank. -/
namespace ArchSketch.Diagram

open Text

variable {u v t name : List Char} {c : Char} {inWord : Bool}

theorem takeWhile_isWord_append_stop (hc : isWord c = false) (u t : List Char) :
    (u ++ c :: t).takeWhile isWord = (u ++ [c]).takeWhile isWord := by
  induction u with
  | nil => simp [hc]
  | cons d u ih =>
    simp only [List.cons_append, List.takeWhile_cons, ih]

theorem dropWhile_isWord_append_stop (hc : isWord c = false) (u t : List Char) :
    ∃ v, (u ++ c :: t).dropWhile isWord = v ++ c :: t ∧
      (u ++ [c]).dropWhile isWord = v ++ [c] := by
  induction u with
  | nil => exact ⟨[], by simp [hc]⟩
  | cons d u ih =>
    by_cases hd : isWord d
    · simpa [hd] using ih
    · exact ⟨d :: u, by simp [hd]⟩

theorem opensBracket_append_stop (hc : isBlank c = false) (u t : List Char) :
    opensBracket (u ++ c :: t) = opensBracket (u ++ [c]) := by
  induction u with
  | nil => simp [opensBracket, trimStart_cons_of_not_isBlank hc]
  | cons d u ih =>
    unfold opensBracket at ih ⊢
    cases hd : isBlank d with
    | false => simp [trimStart_cons_of_not_isBlank hd]
    | true => simpa [trimStart_cons_of_isBlank hd] using ih

/-- Calls on either side of a character that ends both words and blanks. -/
theorem callsFrom_append_stop (hw : isWord c = false) (hb : isBlank c = false) (inWord : Bool)
    (u t : List Char) :
    callsFrom inWord (u ++ c :: t) = callsFrom inWord (u ++ [c]) ++ callsFrom false t := by
  induction u generalizing inWord with
  | nil => simp [callsFrom, hw]
  | cons d u ih =>
    obtain ⟨v, hv, hv'⟩ := dropWhile_isWord_append_stop hw u t
    simp only [List.cons_append, callsFrom, ih, hv, hv', opensBracket_append_stop hb v t,
      takeWhile_isWord_append_stop hw u t]
    split <;> rfl

theorem opensBracket_append (h : opensBracket u = true) (t : List Char) :
    opensBracket (u ++ t) = true := by
  unfold opensBracket at h ⊢
  induction u with
  | nil => contradiction
  | cons d u ih =>
    cases hd : isBlank d with
    | true =>
      rw [trimStart_cons_of_isBlank hd] at h
      rw [List.cons_append, trimStart_cons_of_isBlank hd, ih h]
    | false =>
      rw [trimStart_cons_of_not_isBlank hd] at h
      rw [List.cons_append, trimStart_cons_of_not_isBlank hd]
      exact h

theorem mem_callsFrom_append {name : List Char} {inWord : Bool} (h : name ∈ callsFrom inWord u)
    (t : List Char) : name ∈ callsFrom inWord (u ++ t) := by
  induction u generalizing inWord with
  | nil => contradiction
  | cons d u ih =>
    rw [callsFrom] at h
    rw [List.cons_append, callsFrom]
    split at h
    · rename_i hd
      simp only [Bool.and_eq_true] at hd
      obtain ⟨v, hv, hopen⟩ : ∃ v, u.dropWhile isWord = v ∧ opensBracket v = true := ⟨_, rfl, hd.2⟩
      have hvne : v ≠ [] := by
        rintro rfl
        contradiction
      have hdrop : (u ++ t).dropWhile isWord = v ++ t := by
        rw [List.dropWhile_append, hv, if_neg (by simpa using hvne)]
      have htake : (u ++ t).takeWhile isWord = u.takeWhile isWord := by
        have hlen := congrArg List.length (List.takeWhile_append_dropWhile (p := isWord) (l := u))
        rw [List.length_append, hv] at hlen
        have := List.length_pos_iff.2 hvne
        rw [List.takeWhile_append, if_neg (by omega)]
      rw [if_pos (by simp [hd.1, hdrop, opensBracket_append hopen]), htake]
      rcases List.mem_cons.1 h with rfl | h
      · exact List.mem_cons_self
      · exact List.mem_cons_of_mem _ (ih h)
    · split
      · exact List.mem_cons_of_mem _ (ih h)
      · exact ih h

theorem callsFrom_blank_cons (hc : isBlank c = true) (inWord : Bool) (t : List Char) :
    callsFrom inWord (c :: t) = calls t := by
  rw [callsFrom, not_isWord_of_isBlank hc, Bool.and_false, Bool.false_and]
  rfl

theorem mem_callsFrom_append_newline {name : List Char} (h : name ∈ calls t) (inWord : Bool)
    (u : List Char) : name ∈ callsFrom inWord (u ++ '\n' :: t) := by
  induction u generalizing inWord with
  | nil => rwa [List.nil_append, callsFrom_blank_cons rfl]
  | cons d u ih =>
    rw [List.cons_append, callsFrom]
    split
    · exact List.mem_cons_of_mem _ (ih _)
    · exact ih _

theorem mem_calls_unlines {name l : List Char} {ls : List (List Char)} (hl : l ∈ ls)
    (h : name ∈ calls l) : name ∈ calls (unlines ls) := by
  induction ls with
  | nil => contradiction
  | cons m ls ih =>
    by_cases hls : ls = []
    · rw [hls, List.mem_singleton] at hl
      rwa [hls, unlines_singleton, ← hl]
    · rw [unlines_cons hls]
      rcases List.mem_cons.1 hl with rfl | hl
      · exact mem_callsFrom_append h _
      · exact mem_callsFrom_append_newline (ih hl) false m

theorem calls_blanks_append {blanks : List Char} (h : ∀ d ∈ blanks, isBlank d = true)
    (t : List Char) : calls (blanks ++ t) = calls t := by
  induction blanks with
  | nil => rfl
  | cons d blanks ih =>
    obtain ⟨hd, h⟩ := List.forall_mem_cons.1 h
    exact (callsFrom_blank_cons hd false _).trans (ih h)

theorem mem_calls_of_word {name : List Char} (hname : ∀ d ∈ name, isWord d = true)
    (hne : name ≠ []) (t : List Char) : name ∈ calls (name ++ '(' :: t) := by
  obtain ⟨d, name, rfl⟩ := List.exists_cons_of_ne_nil hne
  obtain ⟨hd, hname⟩ := List.forall_mem_cons.1 hname
  have hstop : isWord '(' = false := by decide
  have hdrop : (name ++ '(' :: t).dropWhile isWord = '(' :: t := by
    rw [List.dropWhile_append_of_pos hname, List.dropWhile_cons_of_neg (by simp [hstop])]
  have htake : (name ++ '(' :: t).takeWhile isWord = name := by
    rw [List.takeWhile_append_of_pos hname, List.takeWhile_cons_of_neg (by simp [hstop]),
      List.append_nil]
  have hopen : opensBracket ('(' :: t) = true := by
    rw [opensBracket, trimStart_cons_of_not_isBlank (by decide)]
    rfl
  rw [List.cons_append, calls, callsFrom, hdrop, htake, hd, hopen]
  exact List.mem_cons_self

theorem calls_unlines_cons (hw : isWord c = false) (hb : isBlank c = false) (l : List Char)
    (ls : List (List Char)) :
    calls (unlines ((l ++ [c]) :: ls)) = calls (l ++ [c]) ++ calls (unlines ls) := by
  cases ls with
  | nil =>
    rw [unlines_singleton]
    exact (List.append_nil _).symm
  | cons m ls =>
    rw [unlines_cons (by simp), List.append_assoc, List.singleton_append, calls,
      callsFrom_append_stop hw hb]
    exact congrArg _ (callsFrom_blank_cons rfl false _)

theorem calls_unlines_defaultStyling (ls : List (List Char)) :
    calls (unlines (defaultStyling ++ ls)) =
      "LAYOUT_WITH_LEGEND".toList :: "HIDE_STEREOTYPE".toList :: calls (unlines ls) := by
  have hw : isWord ')' = false := by decide
  have hb : isBlank ')' = false := by decide
  have hlayout := calls_unlines_cons hw hb "LAYOUT_WITH_LEGEND(".toList
    ("HIDE_STEREOTYPE()".toList :: ls)
  have hhide := calls_unlines_cons hw hb "HIDE_STEREOTYPE(".toList ls
  calc calls (unlines (defaultStyling ++ ls))
      = calls "LAYOUT_WITH_LEGEND()".toList ++ calls (unlines ("HIDE_STEREOTYPE()".toList :: ls)) :=
        hlayout
    _ = calls "LAYOUT_WITH_LEGEND()".toList ++
          (calls "HIDE_STEREOTYPE()".toList ++ calls (unlines ls)) := congrArg _ hhide
    _ = _ := by
      rw [show calls "LAYOUT_WITH_LEGEND()".toList = ["LAYOUT_WITH_LEGEND".toList] by decide,
        show calls "HIDE_STEREOTYPE()".toList = ["HIDE_STEREOTYPE".toList] by decide]
      rfl

theorem any_isElementOf_unlines_defaultStyling (l : Level) (ls : List (List Char)) :
    (calls (unlines (defaultStyling ++ ls))).any (isElementOf l) =
      (calls (unlines ls)).any (isElementOf l) := by
  have hstyling : isElementOf l "LAYOUT_WITH_LEGEND".toList = false ∧
      isElementOf l "HIDE_STEREOTYPE".toList = false := by
    cases l <;> decide
  simp only [calls_unlines_defaultStyling, List.any_cons, hstyling, Bool.false_or]

theorem level?_unlines_defaultStyling (ls : List (List Char)) :
    level? (unlines (defaultStyling ++ ls)) = level? (unlines ls) := by
  simp only [level?_eq, levelOf?, any_isElementOf_unlines_defaultStyling]

theorem hasStyling_unlines_defaultStyling (ls : List (List Char)) :
    hasStyling (unlines (defaultStyling ++ ls)) = true := by
  rw [hasStyling_eq, calls_unlines_defaultStyling, List.any_cons,
    show isStyling "LAYOUT_WITH_LEGEND".toList = true by decide, Bool.true_or]

/-! Calls that lie across the border of two texts. -/

theorem endsInWord_append (inWord : Bool) (u v : List Char) :
    endsInWord inWord (u ++ v) = endsInWord (endsInWord inWord u) v := by
  induction u generalizing inWord with
  | nil => rfl
  | cons c u ih => exact ih _

/-- A call that begins in one text and has its bracket in the next: the border lies in its name, or
between the name and the bracket. -/
inductive Crosses (inWord : Bool) (name : List Char) : List Char → List Char → Prop
  | inName (before part rest after : List Char) (hname : name = part ++ rest) (hpart : part ≠ [])
    (hrest : rest ≠ []) (hstart : endsInWord inWord before = false) (hword : IsWord name)
    (hopens : opensBracket after = true) : Crosses inWord name (before ++ part) (rest ++ after)
  | beforeBracket (before gap v : List Char) (hgap : ∀ c ∈ gap, isBlank c = true)
    (hstart : endsInWord inWord before = false) (hword : IsWord name)
    (hopens : opensBracket v = true) : Crosses inWord name (before ++ (name ++ gap)) v

theorem mem_callsFrom_append_iff : name ∈ callsFrom inWord (u ++ v) ↔
    name ∈ callsFrom inWord u ∨ Crosses inWord name u v ∨
      name ∈ callsFrom (endsInWord inWord u) v := by
  constructor
  · intro h
    obtain ⟨before, after, ht, hstart, hword, hopens⟩ := mem_callsFrom_iff.1 h
    rcases List.append_eq_append_iff.1 ht with ⟨gap, rfl, rfl⟩ | ⟨part, rfl, hpart⟩
    · right; right
      rw [endsInWord_append] at hstart
      exact mem_callsFrom_iff.2 ⟨gap, after, rfl, hstart, hword, hopens⟩
    -- the name begins in `u`, or at its end
    rcases List.append_eq_append_iff.1 hpart with ⟨begun, rfl, rfl⟩ | ⟨rest, rfl, rfl⟩
    · obtain ⟨gap, rest, hafter, hgap⟩ := opensBracket_iff.1 hopens
      rcases List.append_eq_append_iff.1 hafter with ⟨blanks, rfl, rfl⟩ | ⟨rest', rfl, hv⟩
      · right; left
        refine .beforeBracket before begun _ ?_ hstart hword
          (opensBracket_iff.2 ⟨blanks, rest, rfl, ?_⟩)
        · exact fun c hc => hgap c (List.mem_append_left _ hc)
        · exact fun c hc => hgap c (List.mem_append_right _ hc)
      · cases rest' with
        | nil =>
          right; left
          refine .beforeBracket before _ v (by simpa using hgap) hstart hword ?_
          exact opensBracket_iff.2 ⟨[], rest, by simpa using hv.symm, by simp⟩
        | cons d rest' =>
          left
          obtain ⟨rfl, -⟩ := List.cons.inj hv
          exact mem_callsFrom_iff.2 ⟨before, gap ++ '(' :: rest', rfl, hstart, hword,
            opensBracket_iff.2 ⟨gap, rest', rfl, hgap⟩⟩
    · by_cases hpart : part = []
      · right; right
        subst hpart
        rw [List.append_nil, hstart]
        exact mem_callsFrom_iff.2 ⟨[], after, rfl, rfl, hword, hopens⟩
      right; left
      by_cases hrest : rest = []
      · subst hrest
        have hborder := Crosses.beforeBracket before [] after (by simp) hstart hword hopens
        simpa using hborder
      · exact .inName before part rest after rfl hpart hrest hstart hword hopens
  · rintro (h | h | h)
    · exact mem_callsFrom_append h v
    · cases h with
      | inName before part rest after hname hpart hrest hstart hword hopens =>
        exact mem_callsFrom_iff.2 ⟨before, after, by simp [hname], hstart, hword, hopens⟩
      | beforeBracket before gap v hgap hstart hword hopens =>
        obtain ⟨gap', rest, rfl, hgap'⟩ := opensBracket_iff.1 hopens
        refine mem_callsFrom_iff.2 ⟨before, gap ++ gap' ++ '(' :: rest, by simp, hstart, hword, ?_⟩
        exact opensBracket_iff.2 ⟨gap ++ gap', rest, rfl, List.forall_mem_append.2 ⟨hgap, hgap'⟩⟩
    · obtain ⟨before, after, rfl, hstart, hword, hopens⟩ := mem_callsFrom_iff.1 h
      exact mem_callsFrom_iff.2
        ⟨u ++ before, after, by simp, by rwa [endsInWord_append], hword, hopens⟩

def lastWord (u : List Char) : List Char :=
  ((u.reverse.dropWhile isBlank).takeWhile isWord).reverse

theorem lastWord_append {before gap : List Char} (hgap : ∀ c ∈ gap, isBlank c = true)
    (hname : IsWord name) (hstart : endsInWord inWord before = false) :
    lastWord (before ++ (name ++ gap)) = name := by
  have hfirst : ∀ c ∈ before.reverse.head?, isWord c = false := by
    rcases before.eq_nil_or_concat' with rfl | ⟨before, c, rfl⟩
    · simp
    · simpa using hstart
  have hword : ∀ c ∈ name.reverse, isWord c = true := by simpa using hname.2
  have hstays : (name.reverse ++ before.reverse).dropWhile isBlank =
      name.reverse ++ before.reverse := by
    obtain ⟨c, rest, hreverse⟩ := List.exists_cons_of_ne_nil (List.reverse_ne_nil_iff.2 hname.1)
    have hc : isBlank c = false := by
      rw [← Bool.not_eq_true]
      intro hblank
      have := hword c (by simp [hreverse])
      simp [not_isWord_of_isBlank hblank] at this
    rw [hreverse, List.cons_append, List.dropWhile_cons_of_neg (by simp [hc])]
  rw [lastWord, List.reverse_append, List.reverse_append, List.append_assoc,
    List.dropWhile_append_of_pos (by simpa using hgap), hstays,
    takeWhile_isWord_append hword hfirst, List.reverse_reverse]

/-- After a character that ends words only the last word can be called from beyond the border. -/
theorem Crosses.eq_lastWord (h : Crosses inWord name (u ++ [c]) v) (hc : isWord c = false) :
    name = lastWord (u ++ [c]) := by
  generalize hu : u ++ [c] = t at h
  cases h with
  | inName before part rest after hname hpart hrest hstart hword hopens =>
    obtain ⟨part, d, rfl⟩ := (part.eq_nil_or_concat').resolve_left hpart
    rw [← List.append_assoc] at hu
    obtain rfl : c = d := by simpa using (List.append_inj' hu rfl).2
    simp [hword.2 c (by simp [hname])] at hc
  | beforeBracket before gap v hgap hstart hword hopens =>
    exact (lastWord_append hgap hword hstart).symm

theorem not_crosses_of_head (hfirst : ∀ c ∈ v.head?, isWord c = false)
    (hopens : opensBracket v = false) : ¬ Crosses inWord name u v := by
  intro h
  cases h with
  | inName before part rest after hname hpart hrest hstart hword hopens =>
    obtain ⟨c, rest, rfl⟩ := List.exists_cons_of_ne_nil hrest
    have hc := hfirst c rfl
    simp [hword.2 c (by simp [hname])] at hc
  | beforeBracket before gap v hgap hstart hword hbracket => simp [hopens] at hbracket

theorem not_crosses_of_not_mem (h : ∀ c ∈ name.head?, c ∉ u) : ¬ Crosses inWord name u v := by
  intro hcross
  cases hcross with
  | inName before part rest after hname hpart hrest hstart hword hopens =>
    obtain ⟨c, part, rfl⟩ := List.exists_cons_of_ne_nil hpart
    exact h c (by simp [hname]) (by simp)
  | beforeBracket before gap v hgap hstart hword hopens =>
    obtain ⟨c, name, rfl⟩ := List.exists_cons_of_ne_nil hword.1
    exact h c rfl (by simp)

end ArchSketch.Diagram
