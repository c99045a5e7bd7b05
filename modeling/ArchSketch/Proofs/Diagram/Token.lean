import ArchSketch.Diagram.Call
import ArchSketch.Proofs.Text.Trim

/-! A text read word by word. A call is a word, which is a maximal run of word characters, with an
opening bracket after it. The ways to write a name may be tried wherever a word begins or ends, and
they may read a part of a word only; still a name is found in a text exactly when one of the calls
has it as its whole word. -/
namespace ArchSketch.Diagram

open Text

variable {t r name before after : List Char} {s a b : Spelling} {inWord : Bool} {l : Level}

/-- `inWord` says that the text goes on in the middle of a word. -/
def callsFrom (inWord : Bool) : List Char → List (List Char)
  | [] => []
  | c :: t =>
    let later := callsFrom (isWord c) t
    if !inWord && isWord c && opensBracket (t.dropWhile isWord) then
      (c :: t.takeWhile isWord) :: later
    else later

def calls (t : List Char) : List (List Char) := callsFrom false t

def elements : Level → List String
  | .context =>
    ["Person", "Person_Ext", "System", "SystemDb", "SystemQueue", "System_Ext", "SystemDb_Ext",
      "SystemQueue_Ext", "System_Boundary", "Enterprise_Boundary"]
  | .container =>
    ["Container", "ContainerDb", "ContainerQueue", "Container_Ext", "ContainerDb_Ext",
      "ContainerQueue_Ext", "Container_Boundary"]
  | .component =>
    ["Component", "ComponentDb", "ComponentQueue", "Component_Ext", "ComponentDb_Ext",
      "ComponentQueue_Ext"]

def isElementOf (l : Level) (name : List Char) : Bool := (elements l).any (·.toList == name)

def isStyling (name : List Char) : Bool :=
  ("LAYOUT_".toList.isPrefixOf name && 7 < name.length) || name == "HIDE_STEREOTYPE".toList

/-- The most detailed level whose elements are among the called names. -/
def levelOf? (names : List (List Char)) : Option Level :=
  [Level.component, .container, .context].find? fun l => names.any (isElementOf l)

theorem isWord_of_isAsciiWord {c : Char} (h : isAsciiWord c = true) : isWord c = true := by
  have hsmall : c.toNat < 0x80 := by
    simp only [isAsciiWord, Char.isAlphanum, Char.isAlpha, Char.isUpper, Char.isLower,
      Char.isDigit, Bool.or_eq_true, Bool.and_eq_true, decide_eq_true_eq, beq_iff_eq,
      UInt32.le_iff_toNat_le] at h
    rcases h with ((h | h) | h) | rfl
    · have hupper : c.toNat ≤ 90 := h.2
      omega
    · have hlower : c.toNat ≤ 122 := h.2
      omega
    · have hdigit : c.toNat ≤ 57 := h.2
      omega
    · decide
  rw [isWord, if_pos hsmall, h]

/-! Where the calls of a text are. -/

def IsWord (name : List Char) : Prop := name ≠ [] ∧ ∀ c ∈ name, isWord c = true

/-- A call between two parts of a text: characters of a word that go on neither before nor after,
and only blanks up to an opening bracket. -/
structure IsCall (before name after : List Char) : Prop where
  isWord : IsWord name
  first : ∀ c ∈ before.getLast?, Text.isWord c = false
  last : ∀ c ∈ after.head?, Text.isWord c = false
  bracket : ∃ gap rest, after = gap ++ '(' :: rest ∧ ∀ c ∈ gap, isBlank c = true

def IsCalledIn (name t : List Char) : Prop :=
  ∃ before after, t = before ++ name ++ after ∧ IsCall before name after

def endsInWord (inWord : Bool) : List Char → Bool
  | [] => inWord
  | c :: t => endsInWord (isWord c) t

@[simp] theorem endsInWord_concat (inWord : Bool) (t : List Char) (c : Char) :
    endsInWord inWord (t ++ [c]) = isWord c := by
  induction t generalizing inWord with
  | nil => rfl
  | cons d t ih => exact ih _

theorem endsInWord_eq_false_iff : endsInWord false t = false ↔
    ∀ c ∈ t.getLast?, isWord c = false := by
  rcases t.eq_nil_or_concat with rfl | ⟨t, c, rfl⟩
  · simp [endsInWord]
  · simp

theorem opensBracket_iff : opensBracket t = true ↔
    ∃ gap rest, t = gap ++ '(' :: rest ∧ ∀ c ∈ gap, isBlank c = true := by
  rw [opensBracket, beq_iff_eq]
  constructor
  · intro h
    obtain ⟨gap, hgap, ht⟩ := exists_eq_append_trimStart t
    obtain ⟨rest, hrest⟩ := List.head?_eq_some_iff.1 h
    exact ⟨gap, rest, by rw [← hrest, ← ht], hgap⟩
  · rintro ⟨gap, rest, rfl, hgap⟩
    rw [trimStart_append_blanks _ hgap, trimStart_cons_of_not_isBlank (by decide)]
    rfl

theorem head?_of_opensBracket (h : opensBracket t = true) : ∀ c ∈ t.head?, isWord c = false := by
  obtain ⟨gap, rest, rfl, hgap⟩ := opensBracket_iff.1 h
  cases gap with
  | nil => simp only [List.nil_append, List.head?_cons, Option.mem_some_iff, forall_eq']; decide
  | cons c gap => simpa using not_isWord_of_isBlank (hgap c List.mem_cons_self)

theorem takeWhile_isWord_append (h : ∀ c ∈ name, isWord c = true)
    (hafter : ∀ c ∈ after.head?, isWord c = false) : (name ++ after).takeWhile isWord = name := by
  rw [List.takeWhile_append_of_pos h]
  cases after with
  | nil => simp
  | cons c after => simp [hafter c rfl]

theorem dropWhile_isWord_append (h : ∀ c ∈ name, isWord c = true)
    (hafter : ∀ c ∈ after.head?, isWord c = false) : (name ++ after).dropWhile isWord = after := by
  rw [List.dropWhile_append_of_pos h]
  cases after with
  | nil => simp
  | cons c after => simp [hafter c rfl]

theorem mem_callsFrom_iff : name ∈ callsFrom inWord t ↔
    ∃ before after, t = before ++ (name ++ after) ∧ endsInWord inWord before = false ∧
      IsWord name ∧ opensBracket after = true := by
  induction t generalizing inWord with
  | nil =>
    simp only [callsFrom, List.not_mem_nil, false_iff]
    rintro ⟨before, after, ht, -, ⟨hne, -⟩, -⟩
    simp_all
  | cons c t ih =>
    -- a call begins with the first character, if no word goes on there, or after it
    have hfirst : name ∈ callsFrom inWord (c :: t) ↔
        (!inWord && isWord c && opensBracket (t.dropWhile isWord)) = true ∧
          name = c :: t.takeWhile isWord ∨ name ∈ callsFrom (isWord c) t := by
      rw [callsFrom]
      split <;> simp_all
    rw [hfirst, ih]
    constructor
    · rintro (⟨h, rfl⟩ | ⟨before, after, rfl, h⟩)
      · simp only [Bool.and_eq_true, Bool.not_eq_true'] at h
        refine ⟨[], t.dropWhile isWord, by simp, h.1.1, ⟨by simp, ?_⟩, h.2⟩
        exact List.forall_mem_cons.2 ⟨h.1.2, fun _ hd => List.mem_takeWhile_imp hd⟩
      · exact ⟨c :: before, after, rfl, h⟩
    · rintro ⟨before, after, ht, hstart, hword, hopens⟩
      cases before with
      | nil =>
        left
        obtain ⟨d, name, rfl⟩ := List.exists_cons_of_ne_nil hword.1
        obtain ⟨rfl, rfl⟩ : c = d ∧ t = name ++ after := List.cons.inj ht
        obtain ⟨hc, hname⟩ := List.forall_mem_cons.1 hword.2
        have hend := head?_of_opensBracket hopens
        obtain rfl : inWord = false := hstart
        rw [takeWhile_isWord_append hname hend, dropWhile_isWord_append hname hend, hc, hopens]
        exact ⟨rfl, rfl⟩
      | cons d before =>
        obtain ⟨rfl, rfl⟩ := List.cons.inj ht
        exact .inr ⟨before, after, rfl, hstart, hword, hopens⟩

theorem mem_calls_iff : name ∈ calls t ↔ IsCalledIn name t := by
  simp only [IsCalledIn, calls, mem_callsFrom_iff, List.append_assoc]
  refine exists_congr fun before => exists_congr fun after => and_congr_right fun _ => ?_
  constructor
  · rintro ⟨hstart, hword, hopens⟩
    exact ⟨hword, endsInWord_eq_false_iff.1 hstart, head?_of_opensBracket hopens,
      opensBracket_iff.1 hopens⟩
  · rintro ⟨hword, hstart, -, hopens⟩
    exact ⟨endsInWord_eq_false_iff.2 hstart, hword, opensBracket_iff.2 hopens⟩

instance : Decidable (IsCalledIn name t) := decidable_of_iff (name ∈ calls t) mem_calls_iff

/-! What the ways to write a name read. -/

namespace Spelling

def Spells : Spelling → List Char → Prop
  | word w, name => name = w
  | wordChars, name => IsWord name
  | either a b, name => a.Spells name ∨ b.Spells name
  | optional a, name => name = [] ∨ a.Spells name
  | joined a b, name => ∃ u v, name = u ++ v ∧ a.Spells u ∧ b.Spells v

theorem mem_afterWordChars_iff : r ∈ afterWordChars t ↔ ∃ name, t = name ++ r ∧ IsWord name := by
  induction t with
  | nil => simp [afterWordChars, IsWord]
  | cons c t ih =>
    rw [afterWordChars]
    constructor
    · intro h
      split at h
      · rename_i hc
        rw [List.mem_append, List.mem_singleton, ih] at h
        rcases h with ⟨name, rfl, -, hname⟩ | rfl
        · exact ⟨c :: name, rfl, by simp, List.forall_mem_cons.2 ⟨hc, hname⟩⟩
        · exact ⟨[c], rfl, by simp, by simpa using hc⟩
      · contradiction
    · rintro ⟨name, ht, hne, hname⟩
      obtain ⟨d, name, rfl⟩ := List.exists_cons_of_ne_nil hne
      obtain ⟨rfl, rfl⟩ := List.cons.inj ht
      obtain ⟨hc, hname⟩ := List.forall_mem_cons.1 hname
      rw [if_pos hc, List.mem_append, List.mem_singleton, ih]
      by_cases hempty : name = []
      · exact .inr (by simp [hempty])
      · exact .inl ⟨name, rfl, hempty, hname⟩

theorem mem_rests_iff : r ∈ s.rests t ↔ ∃ name, t = name ++ r ∧ s.Spells name := by
  induction s generalizing t r with
  | word w =>
    simp only [rests, Spells, exists_eq_right]
    split
    · rename_i h
      obtain ⟨u, rfl⟩ := List.isPrefixOf_iff_prefix.1 h
      simp [eq_comm]
    · rename_i h
      simp only [List.not_mem_nil, false_iff]
      rintro rfl
      exact h (List.isPrefixOf_iff_prefix.2 (List.prefix_append w r))
  | wordChars => exact mem_afterWordChars_iff
  | either a b iha ihb =>
    simp only [rests, List.mem_append, iha, ihb, Spells, ← exists_or, ← and_or_left]
  | optional a ih =>
    simp only [rests, List.mem_append, List.mem_singleton, ih, Spells]
    constructor
    · rintro (⟨name, ht, hname⟩ | rfl)
      · exact ⟨name, ht, .inr hname⟩
      · exact ⟨[], rfl, .inl rfl⟩
    · rintro ⟨name, rfl, rfl | hname⟩
      · exact .inr rfl
      · exact .inl ⟨name, rfl, hname⟩
  | joined a b iha ihb =>
    simp only [rests, List.mem_flatMap, iha, ihb, Spells]
    constructor
    · rintro ⟨m, ⟨u, rfl, hu⟩, v, rfl, hv⟩
      exact ⟨u ++ v, by simp, u, v, rfl, hu, hv⟩
    · rintro ⟨_, rfl, u, v, rfl, hu, hv⟩
      exact ⟨v ++ r, ⟨u, by simp, hu⟩, v, rfl, hv⟩

theorem isCalledFrom_iff : s.isCalledFrom inWord t = true ↔
    ∃ before name after, t = before ++ (name ++ after) ∧ name ++ after ≠ [] ∧ s.Spells name ∧
      atWordBorder (endsInWord inWord before) (name ++ after) = true ∧
      opensBracket after = true := by
  induction t generalizing inWord with
  | nil => simp [isCalledFrom]
  | cons c t ih =>
    rw [isCalledFrom, Bool.or_eq_true, Bool.and_eq_true, List.any_eq_true, ih]
    constructor
    · rintro (⟨hborder, after, hafter, hopens⟩ | ⟨before, name, after, rfl, h⟩)
      · obtain ⟨name, ht, hname⟩ := mem_rests_iff.1 hafter
        rw [ht] at hborder
        exact ⟨[], name, after, ht, by simp [← ht], hname, hborder, hopens⟩
      · exact ⟨c :: before, name, after, rfl, h⟩
    · rintro ⟨before, name, after, ht, hne, hname, hborder, hopens⟩
      cases before with
      | nil =>
        rw [List.nil_append] at ht
        exact .inl ⟨ht ▸ hborder, after, mem_rests_iff.2 ⟨name, ht, hname⟩, hopens⟩
      | cons d before =>
        obtain ⟨rfl, rfl⟩ := List.cons.inj ht
        exact .inr ⟨before, name, after, rfl, hne, hname, hborder, hopens⟩

/-- A name is found at the border of a word and ends before blanks or a bracket, so what is read is
the whole word. -/
theorem isCalledIn_iff (h : ∀ name, s.Spells name → IsWord name) :
    s.isCalledIn t = true ↔ ∃ name ∈ calls t, s.Spells name := by
  rw [isCalledIn, isCalledFrom_iff]
  constructor
  · rintro ⟨before, name, after, ht, -, hname, hborder, hopens⟩
    have hword := h name hname
    refine ⟨name, mem_callsFrom_iff.2 ⟨before, after, ht, ?_, hword, hopens⟩, hname⟩
    obtain ⟨c, name, rfl⟩ := List.exists_cons_of_ne_nil hword.1
    simpa [atWordBorder, hword.2 c List.mem_cons_self] using hborder
  · rintro ⟨name, hmem, hname⟩
    obtain ⟨before, after, ht, hstart, hword, hopens⟩ := mem_callsFrom_iff.1 hmem
    refine ⟨before, name, after, ht, by simp [hword.1], hname, ?_, hopens⟩
    obtain ⟨c, name, rfl⟩ := List.exists_cons_of_ne_nil hword.1
    simp [atWordBorder, hstart, hword.2 c List.mem_cons_self]

/-! The names of elements and of styling calls. -/

theorem spells_withExternal : s.withExternal.Spells name ↔
    s.Spells name ∨ ∃ u, s.Spells u ∧ u ++ "_Ext".toList = name := by
  constructor
  · rintro ⟨u, v, rfl, hu, rfl | rfl⟩
    · exact .inl (by rwa [List.append_nil])
    · exact .inr ⟨u, hu, rfl⟩
  · rintro (h | ⟨u, hu, rfl⟩)
    · exact ⟨name, [], by simp, h, .inl rfl⟩
    · exact ⟨u, _, rfl, hu, .inr rfl⟩

theorem spells_withStore {base : String} : (withStore base).Spells name ↔
    name ∈ [base.toList, base.toList ++ "Db".toList, base.toList ++ "Queue".toList] := by
  simp only [List.mem_cons, List.not_mem_nil, or_false]
  constructor
  · rintro ⟨_, v, rfl, rfl, rfl | rfl | rfl⟩
    · exact .inl (List.append_nil _)
    · exact .inr (.inl rfl)
    · exact .inr (.inr rfl)
  · rintro (rfl | rfl | rfl)
    · exact ⟨_, [], by simp, rfl, .inl rfl⟩
    · exact ⟨_, _, rfl, rfl, .inr (.inl rfl)⟩
    · exact ⟨_, _, rfl, rfl, .inr (.inr rfl)⟩

theorem isElementOf_iff : isElementOf l name = true ↔ name ∈ (elements l).map String.toList := by
  simp [isElementOf]

theorem spells_ofLevel_iff : (ofLevel l).Spells name ↔ isElementOf l name = true := by
  rw [isElementOf_iff]
  cases l <;>
    simp [ofLevel, Spells, spells_withExternal, spells_withStore, elements] <;> grind

theorem isWord_of_spells_ofLevel (h : (ofLevel l).Spells name) : IsWord name := by
  have hall : ((elements l).map String.toList).all fun name =>
      !name.isEmpty && name.all isAsciiWord := by
    cases l <;> decide
  have hname := List.all_eq_true.1 hall name (isElementOf_iff.1 (spells_ofLevel_iff.1 h))
  rw [Bool.and_eq_true, Bool.not_eq_true', List.isEmpty_eq_false_iff, List.all_eq_true] at hname
  exact ⟨hname.1, fun c hc => isWord_of_isAsciiWord (hname.2 c hc)⟩

theorem isWord_of_spells_ofStyling (h : ofStyling.Spells name) : IsWord name := by
  have hlayout : "LAYOUT_".toList.all isAsciiWord = true := by decide
  have hhide : "HIDE_STEREOTYPE".toList.all isAsciiWord = true := by decide
  rw [List.all_eq_true] at hlayout hhide
  rcases h with ⟨_, v, rfl, rfl, hv⟩ | rfl
  · exact ⟨by simp, List.forall_mem_append.2
      ⟨fun c hc => isWord_of_isAsciiWord (hlayout c hc), hv.2⟩⟩
  · exact ⟨by simp, fun c hc => isWord_of_isAsciiWord (hhide c hc)⟩

theorem spells_ofStyling_iff (h : IsWord name) : ofStyling.Spells name ↔ isStyling name = true := by
  simp only [isStyling, Bool.or_eq_true, Bool.and_eq_true, beq_iff_eq, decide_eq_true_eq,
    List.isPrefixOf_iff_prefix]
  refine or_congr ⟨?_, ?_⟩ Iff.rfl
  · rintro ⟨_, v, rfl, rfl, hv⟩
    have := List.length_pos_iff.2 hv.1
    exact ⟨List.prefix_append _ v, by simp; omega⟩
  · rintro ⟨⟨v, rfl⟩, hlength⟩
    refine ⟨_, v, rfl, rfl, ?_, fun c hc => h.2 c (List.mem_append_right _ hc)⟩
    rintro rfl
    simp at hlength

end Spelling

/-- Word by word, the level of a text is that of the names it calls. -/
theorem level?_eq (t : List Char) : level? t = levelOf? (calls t) := by
  have hcalled (l : Level) : (Spelling.ofLevel l).isCalledIn t = (calls t).any (isElementOf l) := by
    rw [Bool.eq_iff_iff, Spelling.isCalledIn_iff fun _ => Spelling.isWord_of_spells_ofLevel,
      List.any_eq_true]
    simp only [Spelling.spells_ofLevel_iff]
  simp only [level?, levelOf?, hcalled]

theorem hasStyling_eq (t : List Char) : hasStyling t = (calls t).any isStyling := by
  rw [hasStyling, Bool.eq_iff_iff,
    Spelling.isCalledIn_iff fun _ => Spelling.isWord_of_spells_ofStyling, List.any_eq_true]
  refine exists_congr fun name => and_congr_right fun hname => ?_
  obtain ⟨before, after, -, hcall⟩ := mem_calls_iff.1 hname
  exact Spelling.spells_ofStyling_iff hcall.isWord

end ArchSketch.Diagram
