import ArchSketch.Proofs.Reply.Quoting

/-! Marked blocks line by line. Where an end marker stands only at the ends of lines, the reader of
marked blocks keeps whole lines: it is open or closed between lines, an open one keeps the line, and
a closed one drops what comes before the next start marker. -/
namespace ArchSketch.Reply

open Text Diagram

variable {a b l s t v : List Char} {ls : List (List Char)} {isOpen : Bool}

def Starts (t : List Char) : Prop := ∃ w, w.map fold = openingMarker ∧ w <+: t

instance : DecidablePred Starts := fun _ => decidable_of_iff _ isSome_afterWord?_iff

def fromStart? : List Char → Option (List Char)
  | [] => none
  | c :: t => if Starts (c :: t) then some (c :: t) else fromStart? t

def ClosesOnlyAtEnd (t : List Char) : Prop := ¬ Mentions closingMarker t.dropLast

instance : DecidablePred ClosesOnlyAtEnd := fun _ => inferInstanceAs (Decidable (¬ _))

/-- What is kept of lines by an open or a closed reader. -/
def kept : (isOpen : Bool) → List (List Char) → List (List Char)
  | _, [] => []
  | true, l :: ls => l :: kept (!Mentions closingMarker l) ls
  | false, l :: ls =>
    match fromStart? l with
    | some s => s :: kept (!Mentions closingMarker s) ls
    | none => kept false ls

/-! A single line. -/

theorem Starts.exists_sign (h : Starts t) : ∃ v, t = '@' :: v := by
  obtain ⟨w, hw, u, rfl⟩ := h
  obtain ⟨v, rfl, -⟩ := Reply.exists_sign (w := w) (by simp [hw])
  exact ⟨v ++ u, rfl⟩

theorem Starts.append (h : Starts t) (u : List Char) : Starts (t ++ u) := by
  obtain ⟨w, hw, hprefix⟩ := h
  exact ⟨w, hw, hprefix.trans (List.prefix_append t u)⟩

theorem Starts.mentions (h : Starts t) : Mentions openingMarker t := by
  obtain ⟨w, hw, hprefix⟩ := h
  exact ⟨w, hw, hprefix.isInfix⟩

theorem fromStart?_eq_none (h : ¬ Mentions openingMarker t) : fromStart? t = none := by
  induction t with
  | nil => rfl
  | cons c t ih =>
    have htail := mt (fun hm => Mentions.mono hm (List.suffix_cons c t).isInfix) h
    rw [fromStart?, if_neg (mt Starts.mentions h), ih htail]

theorem fromStart?_of_starts (h : Starts t) : fromStart? t = some t := by
  obtain ⟨v, rfl⟩ := h.exists_sign
  rw [fromStart?, if_pos h]

theorem exists_of_fromStart? (h : fromStart? t = some s) :
    ∃ a, t = a ++ s ∧ Starts s ∧ ¬ Mentions openingMarker a := by
  induction t with
  | nil => contradiction
  | cons c t ih =>
    rw [fromStart?] at h
    split at h
    case isTrue hstarts =>
      obtain rfl := Option.some.inj h
      exact ⟨[], rfl, hstarts, by decide⟩
    case isFalse hstarts =>
      obtain ⟨a, rfl, hs, ha⟩ := ih h
      refine ⟨c :: a, rfl, hs, ?_⟩
      rintro ⟨w, hw, hwithin⟩
      rcases List.infix_cons_iff.1 hwithin with hprefix | hwithin
      · exact hstarts ⟨w, hw, hprefix.trans (List.prefix_append (c :: a) s)⟩
      · exact ha ⟨w, hw, hwithin⟩

theorem not_mentions_of_fromStart?_eq_none (h : fromStart? t = none) :
    ¬ Mentions openingMarker t := by
  induction t with
  | nil => decide
  | cons c t ih =>
    rw [fromStart?] at h
    split at h
    case isTrue => contradiction
    case isFalse hstarts =>
      rintro ⟨w, hw, hwithin⟩
      rcases List.infix_cons_iff.1 hwithin with hprefix | hwithin
      · exact hstarts ⟨w, hw, hprefix⟩
      · exact ih h ⟨w, hw, hwithin⟩

theorem dropLast_infix_dropLast (h : s <:+: t) : s.dropLast <:+: t.dropLast := by
  obtain ⟨a, b, rfl⟩ := h
  by_cases hb : b = []
  · subst hb
    by_cases hs : s = []
    · simp [hs]
    · rw [List.append_nil, List.dropLast_append_of_ne_nil hs]
      exact (List.suffix_append a s.dropLast).isInfix
  · rw [List.dropLast_append_of_ne_nil hb]
    exact (List.dropLast_prefix s).isInfix.trans ⟨a, b.dropLast, rfl⟩

theorem ClosesOnlyAtEnd.mono (h : ClosesOnlyAtEnd t) (hs : s <:+: t) : ClosesOnlyAtEnd s :=
  fun hm => h (hm.mono (dropLast_infix_dropLast hs))

theorem mentions_append_blank_iff {d : Char} (hv : ¬ Mentions closingMarker v)
    (hd : isBlank d = true) :
    Mentions closingMarker (v ++ d :: l) ↔ Mentions closingMarker l := by
  constructor
  · intro hm
    exact (Mentions.or_of_blank (by simp) hd hm).resolve_left hv
  · intro hm
    exact hm.mono ⟨v ++ [d], [], by simp⟩

theorem ClosesOnlyAtEnd.append_blank {d : Char} (hv : ¬ Mentions closingMarker v)
    (hd : isBlank d = true) (hl : ClosesOnlyAtEnd l) : ClosesOnlyAtEnd (v ++ d :: l) := by
  intro hm
  rw [List.dropLast_append_of_ne_nil (by simp)] at hm
  cases l with
  | nil => exact hv (by simpa using hm)
  | cons c l => exact hl ((mentions_append_blank_iff hv hd).1 hm)

theorem closesOnlyAtEnd_append_iff (ha : '@' ∉ a) :
    ClosesOnlyAtEnd (a ++ b) ↔ ClosesOnlyAtEnd b := by
  constructor
  · intro h
    exact h.mono (List.suffix_append a b).isInfix
  · intro h hm
    cases b with
    | nil =>
      have hsign : '@' ∉ a.dropLast := mt List.mem_of_mem_dropLast ha
      rw [List.append_nil, ← List.append_nil a.dropLast] at hm
      exact absurd (Mentions.of_append (by simp) hsign hm) (by decide)
    | cons c b =>
      rw [List.dropLast_append_of_ne_nil (by simp)] at hm
      exact h (Mentions.of_append (by simp) ha hm)

theorem exists_closing (hend : ClosesOnlyAtEnd t) (h : Mentions closingMarker t) :
    ∃ a c, t = a ++ c ∧ c.map fold = closingMarker ∧ ¬ Mentions closingMarker a := by
  obtain ⟨c, hc, a, b, rfl⟩ := h
  have hne : c ≠ [] := by
    rintro rfl
    exact absurd hc (by decide)
  obtain rfl : b = [] := by
    by_contra hb
    apply hend
    rw [List.dropLast_append_of_ne_nil hb]
    exact mentions_of_eq_append rfl hc
  refine ⟨a, c, by simp, hc, fun ha => hend ?_⟩
  rw [List.append_nil, List.dropLast_append_of_ne_nil hne]
  exact ha.mono (List.prefix_append a c.dropLast).isInfix

theorem exists_pair (hstarts : Starts t) (hend : ClosesOnlyAtEnd t)
    (h : Mentions closingMarker t) : ∃ p : MarkerPair, p.text = t := by
  obtain ⟨a, c, rfl, hc, ha⟩ := exists_closing hend h
  obtain ⟨w, hw, hprefix⟩ := hstarts
  have hwa : w <+: a := by
    have hne : a ≠ [] := by
      rintro rfl
      -- the start marker is longer than the end marker
      have hmarkers := hprefix.map fold
      rw [List.nil_append, hw, hc] at hmarkers
      exact absurd hmarkers (by decide)
    obtain ⟨v, rfl, -⟩ := exists_sign (w := c) (by simp [hc])
    exact prefix_of_prefix_append_head (sign_not_mem_tail (by simp [hw])) hne hprefix
  obtain ⟨b, rfl⟩ := hwa
  refine ⟨⟨w, b, c, hw, hc, ?_⟩, by simp [MarkerPair.text]⟩
  intro x hx hmarker
  exact ha ⟨x, hmarker, hx.trans (List.suffix_append w b).isInfix⟩

theorem joinBlocks_closed (hstarts : Starts v) (hend : ClosesOnlyAtEnd v)
    (h : Mentions closingMarker v) (t : List Char) :
    joinBlocks (markedBlocks (v ++ '\n' :: t)) = v ++ '\n' :: joinBlocks (markedBlocks t) := by
  obtain ⟨p, rfl⟩ := exists_pair hstarts hend h
  have hnewline : markedBlocks ('\n' :: t) = markedBlocks t :=
    markedBlocks_append_newline (u := []) (by decide) t
  rw [markedBlocks_text, joinBlocks_text_cons, hnewline]

/-! What is extracted. -/

theorem closesOnlyAtEnd_text (p : MarkerPair) : ClosesOnlyAtEnd p.text := by
  intro hm
  obtain ⟨v, hv, -⟩ := exists_sign (w := p.closing) (by simp [p.fold_closing])
  have hne : v ≠ [] := by
    rintro rfl
    have hclosing := congrArg List.length p.fold_closing
    rw [hv] at hclosing
    exact absurd hclosing (by decide)
  have hlast : p.text.dropLast = p.opening ++ p.body ++ '@' :: v.dropLast := by
    rw [MarkerPair.text, hv, List.dropLast_append_of_ne_nil (by simp),
      List.dropLast_cons_of_ne_nil hne]
  rw [hlast] at hm
  rcases Mentions.or_of_append (by simp) hm with hm | hm
  · obtain ⟨w, hw, hwithin⟩ := mentions_of_opening_append p.fold_opening hm
    exact p.plain_body w hwithin hw
  · -- the closing marker of the pair is one character short
    obtain ⟨w, hw, hwithin⟩ := hm
    have hlength := hwithin.length_le
    have hclosing := congrArg List.length (hw.trans p.fold_closing.symm)
    rw [List.length_map, List.length_map, hv] at hclosing
    have hpos := List.length_pos_iff.2 hne
    simp at hlength hclosing
    omega

theorem closesOnlyAtEnd_of_mem_lines (h : l ∈ lines (joinBlocks (markedBlocks t))) :
    ClosesOnlyAtEnd l := by
  obtain ⟨pairs, hpairs⟩ := exists_pairs t
  rw [hpairs] at h
  clear hpairs
  induction pairs with
  | nil =>
    obtain rfl : l = [] := by simpa [joinBlocks, lines, pieces] using h
    decide
  | cons p pairs ih =>
    rw [List.map_cons, joinBlocks_text_cons, lines_append] at h
    rcases List.mem_append.1 h with h | h
    · exact (closesOnlyAtEnd_text p).mono (infix_of_mem_lines h)
    · exact ih h

/-! All lines. -/

def closedText (ls : List (List Char)) : List Char := (ls ++ [closingMarker]).flatMap (· ++ ['\n'])

theorem closedText_cons (l : List Char) (ls : List (List Char)) :
    closedText (l :: ls) = l ++ '\n' :: closedText ls := by
  simp [closedText]

/-- A line after an open text is a part of it, and after a closed one it is read anew. -/
theorem joinBlocks_closedText (h : ∀ l ∈ ls, ClosesOnlyAtEnd l) :
    joinBlocks (markedBlocks (closedText ls)) =
        (kept false (ls ++ [closingMarker])).flatMap (· ++ ['\n']) ∧
      ∀ v, Starts v → ClosesOnlyAtEnd v → joinBlocks (markedBlocks (v ++ '\n' :: closedText ls)) =
        v ++ '\n' :: (kept (!Mentions closingMarker v) (ls ++ [closingMarker])).flatMap
          (· ++ ['\n']) := by
  -- both states of the reader go along, because a text that closes leaves the rest to a closed one
  induction ls with
  | nil =>
    have hclosed : joinBlocks (markedBlocks (closedText [])) = [] := by decide +kernel
    have hkept : kept false [closingMarker] = [] := by decide +kernel
    refine ⟨by simp [hclosed, hkept], ?_⟩
    intro v hv hend
    by_cases hm : Mentions closingMarker v
    · rw [joinBlocks_closed hv hend hm, hclosed]
      simp [hm, hkept]
    · have hclosing : ClosesOnlyAtEnd (v ++ '\n' :: closingMarker) :=
        .append_blank hm (by decide) (by decide)
      have hmentions : Mentions closingMarker (v ++ '\n' :: closingMarker) :=
        (mentions_append_blank_iff hm (by decide)).2 (by decide)
      have hread := joinBlocks_closed (hv.append _) hclosing hmentions []
      have hnil : joinBlocks (markedBlocks []) = [] := rfl
      simpa [hm, hnil, kept, closedText] using hread
  | cons l ls ih =>
    obtain ⟨hl, h⟩ := List.forall_mem_cons.1 h
    obtain ⟨ihClosed, ihOpen⟩ := ih h
    have hclosed : joinBlocks (markedBlocks (closedText (l :: ls))) =
        (kept false (l :: ls ++ [closingMarker])).flatMap (· ++ ['\n']) := by
      rw [closedText_cons, List.cons_append, kept]
      cases hfrom : fromStart? l with
      | none =>
        rw [markedBlocks_append_newline (not_mentions_of_fromStart?_eq_none hfrom), ihClosed]
      | some s =>
        obtain ⟨a, rfl, hs, ha⟩ := exists_of_fromStart? hfrom
        obtain ⟨v, hv⟩ := hs.exists_sign
        have hend := hl.mono (List.suffix_append a s).isInfix
        rw [List.append_assoc, markedBlocks_prose ha (.inr (by simp [hv])), ihOpen s hs hend]
        simp
    refine ⟨hclosed, ?_⟩
    intro v hv hend
    by_cases hm : Mentions closingMarker v
    · rw [joinBlocks_closed hv hend hm, hclosed]
      simp [hm]
    · have hread := ihOpen (v ++ '\n' :: l) (hv.append _) (.append_blank hm (by decide) hl)
      simp only [mentions_append_blank_iff hm (d := '\n') (by decide)] at hread
      simpa [hm, kept, closedText_cons] using hread

/-! What is kept of lines. -/

theorem suffix_of_mem_kept (h : s ∈ kept isOpen ls) : ∃ l ∈ ls, s <:+ l := by
  induction ls generalizing isOpen with
  | nil => simp [kept] at h
  | cons l ls ih =>
    have htail {isOpen : Bool} (h : s ∈ kept isOpen ls) : ∃ m ∈ l :: ls, s <:+ m := by
      obtain ⟨m, hm, hs⟩ := ih h
      exact ⟨m, List.mem_cons_of_mem l hm, hs⟩
    cases isOpen with
    | true =>
      rcases List.mem_cons.1 h with rfl | h
      · exact ⟨s, List.mem_cons_self, List.suffix_refl s⟩
      · exact htail h
    | false =>
      rw [kept] at h
      split at h
      next u hfrom =>
        rcases List.mem_cons.1 h with rfl | h
        · obtain ⟨a, rfl, -⟩ := exists_of_fromStart? hfrom
          exact ⟨_, List.mem_cons_self, List.suffix_append a s⟩
        · exact htail h
      next => exact htail h

theorem exists_kept_concat (isOpen : Bool) (ls : List (List Char)) :
    ∃ tail, (∀ l ∈ tail, l = closingMarker) ∧
      kept isOpen (ls ++ [closingMarker]) = kept isOpen ls ++ tail := by
  induction ls generalizing isOpen with
  | nil =>
    cases isOpen with
    | true => exact ⟨[closingMarker], by simp, rfl⟩
    | false => exact ⟨[], by simp, by decide +kernel⟩
  | cons l ls ih =>
    have htail (s : List Char) (isOpen : Bool) : ∃ tail, (∀ l ∈ tail, l = closingMarker) ∧
        s :: kept isOpen (ls ++ [closingMarker]) = s :: kept isOpen ls ++ tail := by
      obtain ⟨tail, hall, htail⟩ := ih isOpen
      exact ⟨tail, hall, by rw [htail, List.cons_append]⟩
    cases isOpen with
    | true => exact htail l _
    | false =>
      rw [List.cons_append, kept, kept]
      cases fromStart? l with
      | none => exact ih false
      | some s => exact htail s _

theorem kept_append_of_open (h : ∀ l ∈ ls, ¬ Mentions closingMarker l)
    (rest : List (List Char)) : kept true (ls ++ rest) = ls ++ kept true rest := by
  induction ls with
  | nil => rfl
  | cons l ls ih =>
    obtain ⟨hl, h⟩ := List.forall_mem_cons.1 h
    simp [kept, hl, ih h]

theorem kept_append_of_closed (h : ∀ l ∈ ls, ¬ Mentions openingMarker l)
    (rest : List (List Char)) : kept false (ls ++ rest) = kept false rest := by
  induction ls with
  | nil => rfl
  | cons l ls ih =>
    obtain ⟨hl, h⟩ := List.forall_mem_cons.1 h
    rw [List.cons_append, kept, fromStart?_eq_none hl, ih h]

/-! Lines that stay as they are. -/

/-- What can come after a line: the reader goes on after a closed line only at a start marker. -/
def Follows (l m : List Char) : Prop := Mentions closingMarker l → Starts m

instance : DecidableRel Follows := fun _ _ => inferInstanceAs (Decidable (_ → _))

def size (ls : List (List Char)) : Nat := (ls.map (·.length + 1)).sum

theorem size_cons (l : List Char) (ls : List (List Char)) :
    size (l :: ls) = l.length + 1 + size ls := rfl

theorem size_append (a b : List (List Char)) : size (a ++ b) = size a + size b := by
  simp [size]

theorem size_map_le {f : List Char → List Char} (h : ∀ l, (f l).length ≤ l.length)
    (ls : List (List Char)) : size (ls.map f) ≤ size ls := by
  induction ls with
  | nil => simp
  | cons l ls ih =>
    have hl := h l
    rw [List.map_cons, size_cons, size_cons]
    omega

theorem size_filter_le (p : List Char → Bool) (ls : List (List Char)) :
    size (ls.filter p) ≤ size ls := by
  induction ls with
  | nil => simp
  | cons l ls ih =>
    rw [List.filter_cons]
    split
    · exact Nat.add_le_add_left ih _
    · rw [size_cons]
      omega

theorem size_kept_le (isOpen : Bool) (ls : List (List Char)) :
    size (kept isOpen ls) ≤ size ls := by
  induction ls generalizing isOpen with
  | nil => simp [kept]
  | cons l ls ih =>
    cases isOpen with
    | true =>
      rw [kept, size_cons, size_cons]
      exact Nat.add_le_add_left (ih _) _
    | false =>
      rw [kept, size_cons]
      split
      next s hfrom =>
        obtain ⟨a, rfl, -⟩ := exists_of_fromStart? hfrom
        have htail := ih (!Mentions closingMarker s)
        rw [size_cons, List.length_append]
        omega
      next =>
        have htail := ih false
        omega

theorem kept_eq_self (h : size ls ≤ size (kept isOpen ls)) : kept isOpen ls = ls := by
  induction ls generalizing isOpen with
  | nil => simp [kept]
  | cons l ls ih =>
    cases isOpen with
    | true =>
      rw [kept, size_cons, size_cons] at h
      rw [kept, ih (by omega)]
    | false =>
      rw [kept, size_cons] at h
      rw [kept]
      split at h
      next s hfrom =>
        obtain ⟨a, rfl, -⟩ := exists_of_fromStart? hfrom
        have htail := size_kept_le (!Mentions closingMarker s) ls
        rw [size_cons, List.length_append] at h
        obtain rfl : a = [] := by
          rw [← List.length_eq_zero_iff]
          omega
        have hkept : kept (!Mentions closingMarker s) ls = ls := ih (by simp at h; omega)
        simp [hkept]
      next hfrom =>
        have htail := size_kept_le false ls
        omega

theorem kept_false_of_starts (h : Starts l) (ls : List (List Char)) :
    kept false (l :: ls) = kept true (l :: ls) := by
  simp [kept, fromStart?_of_starts h]

theorem kept_false_eq_self_iff :
    kept false ls = ls ↔ kept true ls = ls ∧ ∀ l ∈ ls.head?, Starts l := by
  cases ls with
  | nil => simp [kept]
  | cons l ls =>
    constructor
    · intro h
      have hstarts : Starts l := by
        have hkept := h
        rw [kept] at hkept
        cases hfrom : fromStart? l with
        | none =>
          have hsize := size_kept_le false ls
          simp only [hfrom] at hkept
          rw [hkept, size_cons] at hsize
          omega
        | some s =>
          obtain ⟨a, -, hs, -⟩ := exists_of_fromStart? hfrom
          simp only [hfrom] at hkept
          exact (List.cons.inj hkept).1 ▸ hs
      exact ⟨kept_false_of_starts hstarts ls ▸ h, by simpa using hstarts⟩
    · rintro ⟨h, hstarts⟩
      rw [kept_false_of_starts (hstarts l rfl), h]

theorem kept_true_eq_self_iff : kept true ls = ls ↔ ls.IsChain Follows := by
  induction ls with
  | nil => simp [kept]
  | cons l ls ih =>
    cases ls with
    | nil => simp [kept]
    | cons m ls =>
      rw [List.isChain_cons_cons, ← ih, kept, List.cons_inj_right, Follows]
      by_cases hm : Mentions closingMarker l
      · simp [hm, kept_false_eq_self_iff, and_comm]
      · simp [hm]

end ArchSketch.Reply
