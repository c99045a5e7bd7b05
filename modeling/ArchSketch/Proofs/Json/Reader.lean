import ArchSketch.Json.Reader
import ArchSketch.Proofs.Json.Token

/-! A value that was written, in either layout, is read as the tree of that value. What the writer
lays out with are spaces to the reader, and the text of a value tells where it ends. -/
namespace ArchSketch.Json

theorem skipSpace_append {spaces t : List Char} (h : ∀ c ∈ spaces, isSpace c = true) :
    skipSpace (spaces ++ t) = skipSpace t := by
  unfold skipSpace
  rw [List.dropWhile_append_of_pos h]

theorem skipSpace_cons {c : Char} {t : List Char} (h : isSpace c = false) :
    skipSpace (c :: t) = c :: t := by
  unfold skipSpace
  rw [List.dropWhile_cons_of_neg (by simp [h])]

theorem isSpace_line (l : Layout) (depth : ℕ) : ∀ c ∈ l.line depth, isSpace c = true := by
  cases l with
  | compact => simp [Layout.line]
  | indented =>
    intro c hc
    simp only [Layout.line, List.mem_cons, List.mem_replicate] at hc
    rcases hc with rfl | ⟨-, rfl⟩ <;> decide

def Starts (c : Char) : Prop := isSpace c = false ∧ c ≠ ']'

instance : DecidablePred Starts := fun _ => inferInstanceAs (Decidable (_ ∧ _))

theorem starts_of_isDigit {c : Char} (h : c.isDigit = true) : Starts c := by
  constructor
  · unfold isSpace
    simp only [Bool.or_eq_false_iff, beq_eq_false_iff_ne]
    refine ⟨⟨⟨?_, ?_⟩, ?_⟩, ?_⟩ <;> (rintro rfl; exact absurd h (by decide))
  · rintro rfl
    exact absurd h (by decide)

theorem exists_numeral_text (n : Numeral) :
    ∃ c t, n.text = c :: t ∧ (c = '-' ∨ c.isDigit = true) := by
  unfold Numeral.text
  rcases hd : Number.decimal n.whole with _ | ⟨d, ds⟩
  · exact absurd hd (decimal_ne_nil _)
  · have hdigit : d.isDigit = true := isDigit_of_mem_decimal (n := n.whole) (by
      rw [hd]
      exact List.mem_cons_self)
    split_ifs
    all_goals exact ⟨_, _, rfl, by simp [hdigit]⟩

theorem Value.exists_write (v : Value) (l : Layout) (depth : ℕ) :
    ∃ c t, v.write l depth = c :: t ∧ Starts c := by
  rcases v with _ | b | n | s | items | members
  · exact ⟨'n', _, rfl, by decide⟩
  · cases b
    · exact ⟨'f', _, rfl, by decide⟩
    · exact ⟨'t', _, rfl, by decide⟩
  · obtain ⟨c, t, htext, hc⟩ := exists_numeral_text n
    refine ⟨c, t, htext, ?_⟩
    rcases hc with rfl | hc
    · decide
    · exact starts_of_isDigit hc
  · exact ⟨'\x22', _, rfl, by decide⟩
  · cases items
    · exact ⟨'[', _, rfl, by decide⟩
    · exact ⟨'[', _, rfl, by decide⟩
  · cases members
    · exact ⟨'\x7b', _, rfl, by decide⟩
    · exact ⟨'\x7b', _, rfl, by decide⟩

theorem readValue_spaces (fuel : ℕ) {spaces : List Char} (h : ∀ c ∈ spaces, isSpace c = true)
    (t : List Char) : readValue fuel (spaces ++ t) = readValue fuel t := by
  cases fuel with
  | zero => rfl
  | succ fuel =>
    unfold readValue
    rw [skipSpace_append h]

theorem readItems_spaces (fuel : ℕ) {spaces : List Char} (h : ∀ c ∈ spaces, isSpace c = true)
    (t : List Char) : readItems fuel (spaces ++ t) = readItems fuel t := by
  cases fuel with
  | zero => rfl
  | succ fuel =>
    unfold readItems
    rw [readValue_spaces fuel h]

theorem readMembers_spaces (fuel : ℕ) {spaces : List Char} (h : ∀ c ∈ spaces, isSpace c = true)
    (t : List Char) : readMembers fuel (spaces ++ t) = readMembers fuel t := by
  cases fuel with
  | zero => rfl
  | succ fuel =>
    unfold readMembers
    rw [skipSpace_append h, readValue_spaces fuel h]

theorem next_more (close : Char) (t : List Char) : next close (',' :: t) = .more t := by
  unfold next
  rw [skipSpace_cons (by decide)]
  rfl

theorem next_closed {close : Char} (hcomma : close ≠ ',') (hspace : isSpace close = false)
    {spaces : List Char} (h : ∀ c ∈ spaces, isSpace c = true) (t : List Char) :
    next close (spaces ++ close :: t) = .closed t := by
  unfold next
  rw [skipSpace_append h, skipSpace_cons hspace]
  simp [hcomma]

theorem endsNumber_nil : EndsNumber [] := by
  intro c hc
  cases hc

theorem endsNumber_cons {c : Char} {t : List Char}
    (hc : c.isDigit = false ∧ c ≠ '.' ∧ c ≠ 'e' ∧ c ≠ 'E') : EndsNumber (c :: t) := by
  intro d hd
  obtain rfl : c = d := by simpa using hd
  exact hc

theorem endsNumber_line (l : Layout) (depth : ℕ) {t : List Char} (ht : EndsNumber t) :
    EndsNumber (l.line depth ++ t) := by
  cases l
  · exact ht
  · exact endsNumber_cons (by decide)

theorem endsNumber_items (l : Layout) (depth : ℕ) (vs : List Value) (rest : List Char) :
    EndsNumber (writeItems l depth vs ++ (l.line depth ++ ']' :: rest)) := by
  cases vs
  · exact endsNumber_line l depth (endsNumber_cons (by decide))
  · exact endsNumber_cons (by decide)

theorem endsNumber_members (l : Layout) (depth : ℕ) (ms : List (String × Value))
    (rest : List Char) :
    EndsNumber (writeMembers l depth ms ++ (l.line depth ++ '}' :: rest)) := by
  rcases ms with _ | ⟨⟨k, v⟩, ms⟩
  · exact endsNumber_line l depth (endsNumber_cons (by decide))
  · exact endsNumber_cons (by decide)

theorem readValue_number (n : Numeral) (fuel : ℕ) {rest : List Char} (hrest : EndsNumber rest) :
    readValue (fuel + 1) (n.text ++ rest) = (.number n, rest) := by
  have hscan := scanNumber_text n hrest
  obtain ⟨c, t, htext, hc⟩ := exists_numeral_text n
  have hstart : Starts c := by
    rcases hc with rfl | hc
    · decide
    · exact starts_of_isDigit hc
  have hne {d : Char} (hd : d ≠ '-') (hd' : d.isDigit = false) : (c == d) = false := by
    rw [beq_eq_false_iff_ne]
    rintro rfl
    rcases hc with h | h
    · exact hd h
    · rw [hd'] at h
      cases h
  have hnumber : (c == '-' || c.isDigit) = true := by simpa using hc
  rw [htext, List.cons_append] at hscan ⊢
  unfold readValue
  rw [skipSpace_cons hstart.1]
  dsimp only
  rw [hne (by decide) (by decide), hne (by decide) (by decide), hne (by decide) (by decide),
    hnumber, hscan]
  rfl

theorem quote_append (s : String) (t : List Char) :
    quote s ++ t = '"' :: (s.toList.flatMap escape ++ '"' :: t) := by
  simp [quote]

theorem readValue_text (s : String) (fuel : ℕ) (rest : List Char) :
    readValue (fuel + 1) (quote s ++ rest) = (.text (some s), rest) := by
  have hscan := scanText_escape s rest
  rw [quote_append]
  unfold readValue
  rw [skipSpace_cons (by decide)]
  dsimp only
  rw [if_pos (by decide), hscan]

theorem readValue_array {fuel : ℕ} {c : Char} {t t' rest : List Char} {items : List Node}
    (hskip : skipSpace t = c :: t') (hclose : c ≠ ']')
    (hitems : readItems fuel t = (items, none, rest)) :
    readValue (fuel + 1) ('[' :: t) = (.array items none, rest) := by
  unfold readValue
  rw [skipSpace_cons (by decide)]
  dsimp only
  rw [if_neg (by decide), if_pos (by decide), hskip]
  split
  next heq => exact absurd (List.cons.inj heq).1 hclose
  next => rw [hitems]

theorem readValue_object {fuel : ℕ} {c : Char} {t t' rest : List Char}
    {members : List (Key × Node)} (hskip : skipSpace t = c :: t') (hclose : c ≠ '}')
    (hmembers : readMembers fuel t = (members, none, rest)) :
    readValue (fuel + 1) ('{' :: t) = (.object members none, rest) := by
  unfold readValue
  rw [skipSpace_cons (by decide)]
  dsimp only
  rw [if_neg (by decide), if_neg (by decide), if_pos (by decide), hskip]
  split
  next heq => exact absurd (List.cons.inj heq).1 hclose
  next => rw [hmembers]

theorem exists_colon (l : Layout) :
    ∃ spaces, l.colon = ':' :: spaces ∧ ∀ c ∈ spaces, isSpace c = true := by
  cases l
  · exact ⟨[], rfl, by simp⟩
  · exact ⟨[' '], rfl, by simp [isSpace]⟩

theorem readMembers_member {fuel : ℕ} {value : Node} {t t' : List Char} (k : String) (l : Layout)
    (hvalue : readValue fuel t = (value, t')) :
    readMembers (fuel + 1) (quote k ++ (l.colon ++ t)) =
      match next '}' t' with
      | .more t =>
        let (members, open?, rest) := readMembers fuel t
        ((.name k, value) :: members, open?, rest)
      | .closed rest => ([(.name k, value)], none, rest)
      | .flawed f => ([(.name k, value)], some f, []) := by
  obtain ⟨spaces, hcolon, hspaces⟩ := exists_colon l
  conv => lhs; unfold readMembers
  rw [quote_append, skipSpace_cons (by decide)]
  split
  next keyText hkey =>
    obtain rfl := (List.cons.inj hkey).2
    rw [scanText_escape, hcolon, List.cons_append]
    dsimp only
    rw [skipSpace_cons (by decide)]
    split
    next valueText hvalueText =>
      obtain rfl := (List.cons.inj hvalueText).2
      rw [readValue_spaces fuel hspaces, hvalue]
      rfl
    next heq => cases heq
    next hne _ => exact (hne _ rfl).elim
  next hne => exact (hne _ rfl).elim

-- A value takes one step, and an item or a member one more, so fuel twice the length is enough.
mutual

theorem readValue_write (v : Value) (l : Layout) (depth fuel : ℕ) (rest : List Char)
    (hfuel : 2 * (v.write l depth).length + 1 ≤ fuel) (hrest : EndsNumber rest) :
    readValue fuel (v.write l depth ++ rest) = (Node.ofValue v, rest) := by
  obtain ⟨fuel, rfl⟩ : ∃ i, fuel = i + 1 := Nat.exists_eq_succ_of_ne_zero (by omega)
  match v with
  | .null => rfl
  | .bool true => rfl
  | .bool false => rfl
  | .number n => exact readValue_number n fuel hrest
  | .text s => exact readValue_text s fuel rest
  | .array [] => rfl
  | .array (v :: vs) =>
    have hitems := readItems_write v vs l depth fuel rest (by
      simp only [Value.write, List.length_append, List.length_cons, List.length_nil] at hfuel
      omega)
    obtain ⟨c, t, hwrite, hspace, hclose⟩ := v.exists_write l (depth + 1)
    have htext : (Value.array (v :: vs)).write l depth ++ rest =
        '[' :: (l.line (depth + 1) ++ (v.write l (depth + 1) ++
          (writeItems l depth vs ++ (l.line depth ++ ']' :: rest)))) := by
      simp [Value.write]
    have hskip : skipSpace (l.line (depth + 1) ++ (v.write l (depth + 1) ++
        (writeItems l depth vs ++ (l.line depth ++ ']' :: rest)))) =
        c :: (t ++ (writeItems l depth vs ++ (l.line depth ++ ']' :: rest))) := by
      rw [skipSpace_append (isSpace_line _ _), hwrite, List.cons_append, skipSpace_cons hspace]
    rw [htext]
    apply readValue_array hskip hclose
    rw [readItems_spaces fuel (isSpace_line _ _), hitems]
  | .object [] => rfl
  | .object ((k, v) :: ms) =>
    have hmembers := readMembers_write k v ms l depth fuel rest (by
      simp only [Value.write, List.length_append, List.length_cons, List.length_nil] at hfuel
      omega)
    have htext : (Value.object ((k, v) :: ms)).write l depth ++ rest =
        '{' :: (l.line (depth + 1) ++ (quote k ++ (l.colon ++ (v.write l (depth + 1) ++
          (writeMembers l depth ms ++ (l.line depth ++ '}' :: rest)))))) := by
      simp [Value.write]
    have hskip (t : List Char) : skipSpace (l.line (depth + 1) ++ (quote k ++ t)) =
        '"' :: (k.toList.flatMap escape ++ '"' :: t) := by
      rw [skipSpace_append (isSpace_line _ _), quote_append, skipSpace_cons (by decide)]
    rw [htext]
    apply readValue_object (hskip _) (by decide)
    rw [readMembers_spaces fuel (isSpace_line _ _), hmembers]
termination_by fuel
decreasing_by all_goals omega

theorem readItems_write (v : Value) (vs : List Value) (l : Layout) (depth fuel : ℕ)
    (rest : List Char)
    (hfuel : 2 * ((v.write l (depth + 1)).length + (writeItems l depth vs).length) + 2 ≤ fuel) :
    readItems fuel (v.write l (depth + 1) ++
        (writeItems l depth vs ++ (l.line depth ++ ']' :: rest))) =
      (Node.ofValues (v :: vs), none, rest) := by
  obtain ⟨fuel, rfl⟩ : ∃ i, fuel = i + 1 := Nat.exists_eq_succ_of_ne_zero (by omega)
  have hvalue := readValue_write v l (depth + 1) fuel
    (writeItems l depth vs ++ (l.line depth ++ ']' :: rest)) (by omega) (endsNumber_items _ _ _ _)
  unfold readItems
  rw [hvalue]
  dsimp only
  match vs with
  | [] =>
    rw [writeItems, List.nil_append, next_closed (by decide) (by decide) (isSpace_line _ _)]
    rfl
  | v' :: vs =>
    have hitems := readItems_write v' vs l depth fuel rest (by
      simp only [writeItems, List.length_append, List.length_cons] at hfuel
      omega)
    have htext : writeItems l depth (v' :: vs) ++ (l.line depth ++ ']' :: rest) =
        ',' :: (l.line (depth + 1) ++ (v'.write l (depth + 1) ++
          (writeItems l depth vs ++ (l.line depth ++ ']' :: rest)))) := by
      simp [writeItems]
    rw [htext, next_more]
    dsimp only
    rw [readItems_spaces fuel (isSpace_line _ _), hitems]
    rfl
termination_by fuel
decreasing_by all_goals omega

theorem readMembers_write (k : String) (v : Value) (ms : List (String × Value)) (l : Layout)
    (depth fuel : ℕ) (rest : List Char)
    (hfuel : 2 * ((v.write l (depth + 1)).length + (writeMembers l depth ms).length) + 2 ≤ fuel) :
    readMembers fuel (quote k ++ (l.colon ++ (v.write l (depth + 1) ++
        (writeMembers l depth ms ++ (l.line depth ++ '}' :: rest))))) =
      (Node.ofMembers ((k, v) :: ms), none, rest) := by
  obtain ⟨fuel, rfl⟩ : ∃ i, fuel = i + 1 := Nat.exists_eq_succ_of_ne_zero (by omega)
  have hvalue := readValue_write v l (depth + 1) fuel
    (writeMembers l depth ms ++ (l.line depth ++ '}' :: rest)) (by omega)
    (endsNumber_members _ _ _ _)
  rw [readMembers_member k l hvalue]
  match ms with
  | [] =>
    rw [writeMembers, List.nil_append, next_closed (by decide) (by decide) (isSpace_line _ _)]
    rfl
  | (k', v') :: ms =>
    have hmembers := readMembers_write k' v' ms l depth fuel rest (by
      simp only [writeMembers, List.length_append, List.length_cons] at hfuel
      omega)
    have htext : writeMembers l depth ((k', v') :: ms) ++ (l.line depth ++ '}' :: rest) =
        ',' :: (l.line (depth + 1) ++ (quote k' ++ (l.colon ++ (v'.write l (depth + 1) ++
          (writeMembers l depth ms ++ (l.line depth ++ '}' :: rest)))))) := by
      simp [writeMembers]
    rw [htext, next_more]
    dsimp only
    rw [readMembers_spaces fuel (isSpace_line _ _), hmembers]
    rfl
termination_by fuel
decreasing_by all_goals omega

end

/-- Reading undoes writing, in either layout. -/
theorem Node.read_write (v : Value) (l : Layout) :
    Node.read (v.write l 0) = (Node.ofValue v, []) := by
  have h := readValue_write v l 0 (2 * (v.write l 0).length + 2) [] (by omega) endsNumber_nil
  rwa [List.append_nil] at h

end ArchSketch.Json
