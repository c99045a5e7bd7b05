import ArchSketch.Proofs.Reply.Opening

/-! Blocks as they are written and as they are read. A fence or a pair of markers is read back from
any text that starts with it, whatever follows, and nothing else is read as one; so the blocks of a
reply are those written in it, from the left and without overlap. -/
namespace ArchSketch.Reply

open Text Diagram

variable {b info lineEnd r s t u v w : List Char}

/-! One step of a scan for blocks. -/

section Scan

variable {block? : List Char → Option Block} {k : Nat} {atLineStart : Bool}

theorem blocksFrom_length_append (w s : List Char) :
    blocksFrom block? w.length (w ++ s) = blocksFrom block? 0 s := by
  induction w with
  | nil => rfl
  | cons c w ih => exact ih

theorem blocksFrom_block (hw : w ≠ []) (h : block? (w ++ s) = some (b, s)) :
    blocksFrom block? 0 (w ++ s) = b :: blocksFrom block? 0 s := by
  obtain ⟨c, w, rfl⟩ := List.exists_cons_of_ne_nil hw
  rw [List.cons_append] at h ⊢
  rw [blocksFrom, h]
  dsimp only
  rw [List.length_append, Nat.add_sub_cancel, blocksFrom_length_append]

theorem blocksFrom_prose (h : Pattern.Passes (fun _ => block?) atLineStart t s) :
    blocksFrom block? 0 (t ++ s) = blocksFrom block? 0 s := by
  induction t generalizing atLineStart with
  | nil => rfl
  | cons c t ih =>
    obtain ⟨hc, ht⟩ := h
    have hnone : block? (c :: (t ++ s)) = none := hc
    rw [List.cons_append, blocksFrom, hnone]
    exact ih ht

theorem exists_of_mem_blocksFrom (h : b ∈ blocksFrom block? k t) :
    ∃ r s, r <:+ t ∧ block? r = some (b, s) := by
  induction t generalizing k with
  | nil => simp [blocksFrom] at h
  | cons c t ih =>
    have htail {k : Nat} (h : b ∈ blocksFrom block? k t) :
        ∃ r s, r <:+ c :: t ∧ block? r = some (b, s) := by
      obtain ⟨r, s, hr, hblock⟩ := ih h
      exact ⟨r, s, hr.trans (List.suffix_cons c t), hblock⟩
    cases k with
    | succ k => exact htail h
    | zero =>
      rw [blocksFrom] at h
      split at h
      · rename_i block rest hblock
        rcases List.mem_cons.1 h with rfl | h
        · exact ⟨_, rest, List.suffix_refl _, hblock⟩
        · exact htail h
      · exact htail h

theorem blocksFrom_eq_nil (h : ∀ r, r <:+ t → block? r = none) : blocksFrom block? k t = [] := by
  refine List.eq_nil_iff_forall_not_mem.2 fun b hb => ?_
  obtain ⟨r, s, hr, hblock⟩ := exists_of_mem_blocksFrom hb
  rw [h r hr] at hblock
  contradiction

end Scan

/-! Tagged fences. -/

/-- A tagged fence as it is written: what stands on the line after the tag is no part of the body,
and the body ends before the first three backticks. -/
structure Fence where
  gap : List Char
  tag : List Char
  /-- Nothing, or a blank and any text on the line. -/
  info : List Char
  lineEnd : List Char
  body : List Char
  blank_gap : gap.all isInlineBlank = true := by decide +kernel
  tag_mem : tag.map fold ∈ tags := by decide +kernel
  blank_info : info.head?.all isInlineBlank = true := by decide +kernel
  line_info : '\n' ∉ info := by decide +kernel
  lineEnd_mem : lineEnd ∈ [['\n'], ['\r', '\n']] := by decide +kernel
  plain_body : ¬ fence <:+: body := by decide +kernel
  end_body : body.getLast? ≠ some '\x60' := by decide +kernel

def Fence.text (f : Fence) : List Char :=
  fence ++ f.gap ++ f.tag ++ f.info ++ f.lineEnd ++ f.body ++ fence

theorem Fence.endsTag (f : Fence) (v : List Char) :
    endsTag (f.info ++ f.lineEnd ++ v) = true := by
  have hend := f.lineEnd_mem
  have hblank := (Option.all_eq_true _ _).1 f.blank_info
  simp only [List.mem_cons, List.not_mem_nil, or_false] at hend
  generalize f.info = info at hblank ⊢
  cases info with
  | nil => rcases hend with h | h <;> rw [h] <;> rfl
  | cons c info =>
    have hc : isInlineBlank c = true := hblank c rfl
    simp only [isInlineBlank, Bool.or_eq_true, beq_iff_eq] at hc
    rcases hc with rfl | rfl <;> rfl

theorem afterInfo?_cons {c : Char} (hc : isInlineBlank c = true) (ht : '\n' ∉ t) (v : List Char) :
    afterInfo? (c :: (t ++ '\n' :: v)) = some v := by
  have hdrop : (t ++ '\n' :: v).dropWhile (· != '\n') = '\n' :: v := by
    rw [List.dropWhile_append_of_pos]
    · rfl
    · rintro d hd
      rw [bne_iff_ne]
      rintro rfl
      exact ht hd
  simp only [isInlineBlank, Bool.or_eq_true, beq_iff_eq] at hc
  rcases hc with rfl | rfl <;> simp [afterInfo?, isInlineBlank, hdrop]

theorem afterInfo?_info (hblank : ∀ c ∈ info.head?, isInlineBlank c = true) (hline : '\n' ∉ info)
    (hend : lineEnd ∈ [['\n'], ['\r', '\n']]) (v : List Char) :
    afterInfo? (info ++ lineEnd ++ v) = some v := by
  simp only [List.mem_cons, List.not_mem_nil, or_false] at hend
  cases info with
  | nil => rcases hend with rfl | rfl <;> rfl
  | cons c info =>
    have hinfo := List.not_mem_of_not_mem_cons hline
    rcases hend with rfl | rfl
    · simpa using afterInfo?_cons (hblank c rfl) hinfo v
    · -- the carriage return goes with the text on the line
      simpa using afterInfo?_cons (t := info ++ ['\r']) (hblank c rfl) (by simpa using hinfo) v

theorem exists_of_afterInfo? (h : afterInfo? u = some v) : ∃ info lineEnd,
    u = info ++ lineEnd ++ v ∧ (∀ c ∈ info.head?, isInlineBlank c = true) ∧ '\n' ∉ info ∧
      lineEnd ∈ [['\n'], ['\r', '\n']] := by
  unfold afterInfo? at h
  split at h
  · exact ⟨[], ['\n'], by simpa using h, by simp, by simp, by simp⟩
  · exact ⟨[], ['\r', '\n'], by simpa using h, by simp, by simp, by simp⟩
  · rename_i c t hnewline hreturn
    split at h
    · rename_i hc
      split at h
      · rename_i d body hdrop
        obtain rfl := Option.some.inj h
        have hd : d = '\n' := by
          have := List.head?_dropWhile_not (· != '\n') t
          rw [hdrop] at this
          simpa using this
        refine ⟨c :: t.takeWhile (· != '\n'), ['\n'], ?_, by simpa using hc, ?_, by simp⟩
        · subst hd
          rw [List.cons_append, List.cons_append, List.append_assoc, List.singleton_append, ← hdrop,
            List.takeWhile_append_dropWhile]
        · rw [List.mem_cons, not_or]
          refine ⟨?_, fun hm => by simpa using List.mem_takeWhile_imp hm⟩
          rintro rfl
          exact (hnewline rfl).elim
      · contradiction
    · contradiction
  · contradiction

theorem find?_fence_eq_some_iff :
    find? (fun _ t => afterWord? fence t) true v = some (b, s) ↔
      v = b ++ fence ++ s ∧ ¬ fence <:+: b ∧ b.getLast? ≠ some '\x60' := by
  rw [find?_eq_some_iff]
  constructor
  · rintro ⟨r, rfl, hr, hpasses⟩
    obtain rfl := afterWord?_fence.1 hr
    refine ⟨by simp, ?_, ?_⟩
    · rintro ⟨x, y, rfl⟩
      rw [List.append_assoc] at hpasses
      have hnone := hpasses.eq_none (by simp [fence])
      rw [List.append_assoc, afterWord?_fence.2 rfl] at hnone
      contradiction
    · intro hlast
      obtain ⟨x, rfl⟩ := List.getLast?_eq_some_iff.1 hlast
      have hnone := hpasses.eq_none (by simp)
      have hticks : ['\x60'] ++ (fence ++ s) = fence ++ '\x60' :: s := rfl
      rw [hticks, afterWord?_fence.2 rfl] at hnone
      contradiction
  · rintro ⟨rfl, hplain, hlast⟩
    refine ⟨fence ++ s, by simp, afterWord?_fence.2 rfl, passes_of_forall fun a r hb hr => ?_⟩
    rw [Option.eq_none_iff_forall_not_mem]
    intro v hv
    have hv : r ++ (fence ++ s) = '\x60' :: '\x60' :: '\x60' :: v := afterWord?_fence.1 hv
    -- the backticks would all stand in the body, or its last ones would belong to them
    rcases r with _ | ⟨x, _ | ⟨y, _ | ⟨z, r⟩⟩⟩
    · exact hr rfl
    · obtain rfl : x = '\x60' := (List.cons.inj hv).1
      exact hlast (by simp [hb])
    · obtain rfl : y = '\x60' := (List.cons.inj (List.cons.inj hv).2).1
      exact hlast (by simp [hb])
    · obtain ⟨rfl, rfl, rfl, -⟩ :
          x = '\x60' ∧ y = '\x60' ∧ z = '\x60' ∧ r ++ (fence ++ s) = v := by simpa using hv
      exact hplain ⟨a, r, by rw [hb, List.append_assoc]; rfl⟩

/-- A fence is read as it is written, and only a fence is. -/
theorem fenced?_eq_some_iff :
    fenced? t = some (b, s) ↔ ∃ f : Fence, f.body = b ∧ t = f.text ++ s := by
  constructor
  · intro h
    obtain ⟨v, hv, hfind⟩ := Option.bind_eq_some_iff.1 h
    obtain ⟨u, hu, hinfo⟩ := Option.bind_eq_some_iff.1 hv
    obtain ⟨gap, tag, rfl, hgap, htag⟩ := exists_of_afterTag? hu
    obtain ⟨info, lineEnd, rfl, hblank, hline, hend⟩ := exists_of_afterInfo? hinfo
    obtain ⟨rfl, hplain, hlast⟩ := find?_fence_eq_some_iff.1 hfind
    exact ⟨⟨gap, tag, info, lineEnd, b, List.all_eq_true.2 hgap, htag,
      (Option.all_eq_true _ _).2 hblank, hline, hend, hplain, hlast⟩, rfl, by simp [Fence.text]⟩
  · rintro ⟨f, rfl, rfl⟩
    have htext : f.text ++ s =
        fence ++ f.gap ++ f.tag ++ (f.info ++ f.lineEnd ++ (f.body ++ fence ++ s)) := by
      simp [Fence.text]
    rw [fenced?, htext, afterTag?_tagged (List.all_eq_true.1 f.blank_gap) f.tag_mem (f.endsTag _),
      Option.bind_some, afterInfo?_info ((Option.all_eq_true _ _).1 f.blank_info) f.line_info
        f.lineEnd_mem, Option.bind_some, find?_fence_eq_some_iff]
    exact ⟨rfl, f.plain_body, f.end_body⟩

theorem fencedBlocks_text (f : Fence) (s : List Char) :
    fencedBlocks (f.text ++ s) = f.body :: fencedBlocks s :=
  blocksFrom_block (by simp [Fence.text, fence]) (fenced?_eq_some_iff.2 ⟨f, rfl, rfl⟩)

theorem Fence.prefix_text (f : Fence) (s : List Char) : fence <+: f.text ++ s :=
  ⟨_, by simp [Fence.text]; rfl⟩

theorem Fence.exists_opener (f : Fence) : ∃ w, IsOpener w ∧ w <+: f.text := by
  obtain ⟨stop, hstop, r, hr⟩ := endsTag_iff.1 (f.endsTag (f.body ++ fence))
  exact ⟨_, ⟨f.gap, f.tag, stop, rfl, List.all_eq_true.1 f.blank_gap, f.tag_mem, hstop⟩, r, by
    simpa [Fence.text] using hr⟩

/-! Pairs of markers. -/

/-- A start marker with all up to the next end marker. -/
structure MarkerPair where
  opening : List Char
  body : List Char
  closing : List Char
  fold_opening : opening.map fold = openingMarker
  fold_closing : closing.map fold = closingMarker
  plain_body : ∀ w, w <:+: body → w.map fold ≠ closingMarker

def MarkerPair.text (p : MarkerPair) : List Char := p.opening ++ p.body ++ p.closing

theorem find?_closingMarker_eq_some_iff :
    find? (fun _ t => afterWord? closingMarker t) true v = some (b, s) ↔
      ∃ closing, v = b ++ closing ++ s ∧ closing.map fold = closingMarker ∧
        ∀ w, w <:+: b → w.map fold ≠ closingMarker := by
  rw [find?_eq_some_iff]
  constructor
  · rintro ⟨r, rfl, hr, hpasses⟩
    obtain ⟨closing, rfl, hclosing⟩ := afterWord?_eq_some_iff.1 hr
    refine ⟨closing, by simp, hclosing, ?_⟩
    rintro w ⟨x, y, rfl⟩ hw
    rw [List.append_assoc] at hpasses
    have hne : w ++ y ≠ [] := by
      rintro hnil
      obtain ⟨rfl, -⟩ := List.append_eq_nil_iff.1 hnil
      exact absurd hw (by decide)
    have hnone := hpasses.eq_none hne
    rw [List.append_assoc, afterWord?_eq_some_iff.2 ⟨w, rfl, hw⟩] at hnone
    contradiction
  · rintro ⟨closing, rfl, hclosing, hplain⟩
    refine ⟨closing ++ s, by simp, afterWord?_eq_some_iff.2 ⟨closing, rfl, hclosing⟩,
      passes_of_forall fun a r hb hr => ?_⟩
    rw [Option.eq_none_iff_forall_not_mem]
    intro v hv
    obtain ⟨w, hwv, hw⟩ := afterWord?_eq_some_iff.1 hv
    rcases List.append_eq_append_iff.1 hwv with ⟨x, rfl, hx⟩ | ⟨x, rfl, -⟩
    · cases x with
      | nil => exact hplain r ⟨a, [], by simp [hb]⟩ (by simpa using hw)
      | cons c x =>
        -- the marker would go on with the first character of the closing one
        obtain ⟨d, closing, rfl, hd, -⟩ := List.map_eq_cons_iff.1 hclosing
        obtain ⟨e, r, rfl⟩ := List.exists_cons_of_ne_nil hr
        obtain rfl : d = c := (List.cons.inj hx).1
        have hmem : fold d ∈ closingMarker.tail := by simp [← hw]
        rw [hd] at hmem
        exact absurd hmem (by decide)
    · exact hplain w ⟨a, x, by simp [hb]⟩ hw

theorem marked?_eq_some_iff :
    marked? t = some (b, s) ↔ ∃ p : MarkerPair, p.text = b ∧ t = p.text ++ s := by
  constructor
  · intro h
    obtain ⟨v, hv, hmap⟩ := Option.bind_eq_some_iff.1 h
    obtain ⟨opening, rfl, hopening⟩ := afterWord?_eq_some_iff.1 hv
    obtain ⟨⟨body, rest⟩, hfind, hblock⟩ := Option.map_eq_some_iff.1 hmap
    obtain ⟨closing, rfl, hclosing, hplain⟩ := find?_closingMarker_eq_some_iff.1 hfind
    obtain ⟨rfl, rfl⟩ := Prod.mk.inj hblock
    refine ⟨⟨opening, body, closing, hopening, hclosing, hplain⟩, ?_, by simp [MarkerPair.text]⟩
    have hlength : (opening ++ (body ++ closing ++ rest)).length - rest.length =
        (opening ++ body ++ closing).length := by simp; omega
    rw [hlength, ← List.append_assoc, ← List.append_assoc, List.take_left]
    rfl
  · rintro ⟨p, rfl, rfl⟩
    have htext : p.text ++ s = p.opening ++ (p.body ++ p.closing ++ s) := by
      simp [MarkerPair.text]
    have hlength : (p.text ++ s).length - s.length = p.text.length := by simp
    have hfind := find?_closingMarker_eq_some_iff.2
      ⟨p.closing, (rfl : p.body ++ p.closing ++ s = _), p.fold_closing, p.plain_body⟩
    rw [marked?, htext, afterWord?_eq_some_iff.2 ⟨p.opening, rfl, p.fold_opening⟩, Option.bind_some,
      hfind, Option.map_some, ← htext, hlength, List.take_left]

theorem markedBlocks_text (p : MarkerPair) (s : List Char) :
    markedBlocks (p.text ++ s) = p.text :: markedBlocks s := by
  refine blocksFrom_block ?_ (marked?_eq_some_iff.2 ⟨p, rfl, rfl⟩)
  intro hnil
  have hopening : p.opening = [] := by simp_all [MarkerPair.text]
  exact absurd (hopening ▸ p.fold_opening) (by decide)

/-! Every block stands where something opens it. -/

theorem exists_opener_of_fenced? {block : Block} (h : fenced? t = some block) :
    ∃ w, IsOpener w ∧ w <+: t := by
  obtain ⟨f, -, rfl⟩ := fenced?_eq_some_iff.1 h
  obtain ⟨w, hw, hprefix⟩ := f.exists_opener
  exact ⟨w, hw, hprefix.trans (List.prefix_append _ _)⟩

theorem exists_marker_of_marked? {block : Block} (h : marked? t = some block) :
    ∃ w, w.map fold = openingMarker ∧ w <+: t := by
  obtain ⟨p, -, rfl⟩ := marked?_eq_some_iff.1 h
  exact ⟨p.opening, p.fold_opening, by simp [MarkerPair.text, List.append_assoc]⟩

theorem blocksFrom_unopened {block? : List Char → Option Block} {Opens : List Char → Prop}
    (hblock : ∀ {t block}, block? t = some block → ∃ w, Opens w ∧ w <+: t)
    (h : ∀ a r, u = a ++ r → r ≠ [] → ¬ ∃ w, Opens w ∧ w <+: r ++ s) :
    blocksFrom block? 0 (u ++ s) = blocksFrom block? 0 s := by
  have hpasses : Pattern.Passes (fun _ => block?) true u s := passes_of_forall fun a r hu hr => by
    rw [Option.eq_none_iff_forall_not_mem]
    exact fun block hread => h a r hu hr (hblock hread)
  exact blocksFrom_prose hpasses

/-! Blanks around a reply change nothing in its blocks. -/

/-- A reader of blocks that are written without blanks at their ends. -/
structure IsReader (block? : List Char → Option Block) (Written : List Char → List Char → Prop) :
    Prop where
  eq_some_iff : ∀ {t b s}, block? t = some (b, s) ↔ ∃ w, Written b w ∧ t = w ++ s
  first : ∀ {b w}, Written b w → ∃ c v, w = c :: v ∧ isBlank c = false
  last : ∀ {b w}, Written b w → ∃ v c, w = v ++ [c] ∧ isBlank c = false

namespace IsReader

variable {block? : List Char → Option Block} {Written : List Char → List Char → Prop} {k : Nat}

theorem eq_none_of_head (h : IsReader block? Written) (ht : ∀ c ∈ t.head?, isBlank c = true) :
    block? t = none := by
  rw [Option.eq_none_iff_forall_not_mem]
  rintro ⟨b, s⟩ hblock
  obtain ⟨w, hw, rfl⟩ := h.eq_some_iff.1 hblock
  obtain ⟨c, v, rfl, hc⟩ := h.first hw
  simpa [hc] using ht c rfl

theorem append_blanks (h : IsReader block? Written) (hs : ∀ c ∈ s, isBlank c = true)
    (t : List Char) : block? (t ++ s) = (block? t).map fun block => (block.1, block.2 ++ s) := by
  ext ⟨b, r⟩
  rw [Option.map_eq_some_iff, h.eq_some_iff]
  constructor
  · rintro ⟨w, hw, hwr⟩
    obtain ⟨u, rfl, rfl⟩ : ∃ u, t = w ++ u ∧ r = u ++ s := by
      rcases List.append_eq_append_iff.1 hwr with ⟨a, ha, rfl⟩ | hu
      · obtain rfl : a = [] := by
          obtain ⟨v, c, hv, hc⟩ := h.last hw
          by_contra hne
          obtain ⟨a, d, rfl⟩ := List.eq_nil_or_concat' a |>.resolve_left hne
          rw [hv, ← List.append_assoc] at ha
          obtain rfl : c = d := by simpa using (List.append_inj' ha rfl).2
          rw [hs c (by simp)] at hc
          contradiction
        exact ⟨[], by simp [ha], rfl⟩
      · exact hu
    exact ⟨(b, u), h.eq_some_iff.2 ⟨w, hw, rfl⟩, rfl⟩
  · rintro ⟨⟨b, u⟩, hblock, hbr⟩
    obtain ⟨rfl, rfl⟩ := Prod.mk.inj hbr
    obtain ⟨w, hw, rfl⟩ := h.eq_some_iff.1 hblock
    exact ⟨w, hw, by rw [List.append_assoc]⟩

theorem blocksFrom_append_blanks (h : IsReader block? Written) (hs : ∀ c ∈ s, isBlank c = true)
    (t : List Char) : blocksFrom block? k (t ++ s) = blocksFrom block? k t := by
  induction t generalizing k with
  | nil =>
    exact blocksFrom_eq_nil fun r hr => h.eq_none_of_head fun c hc =>
      hs c (hr.subset (List.mem_of_mem_head? hc))
  | cons c t ih =>
    cases k with
    | succ k => exact ih
    | zero =>
      have hblock := h.append_blanks hs (c :: t)
      rw [List.cons_append] at hblock ⊢
      rw [blocksFrom, blocksFrom, hblock]
      cases block? (c :: t) with
      | none => exact ih
      | some block =>
        dsimp only [Option.map_some]
        rw [List.length_append, List.length_append, Nat.add_sub_add_right, ih]

theorem blocksFrom_blanks_append (h : IsReader block? Written) (hs : ∀ c ∈ s, isBlank c = true)
    (t : List Char) : blocksFrom block? 0 (s ++ t) = blocksFrom block? 0 t := by
  have hpasses : Pattern.Passes (fun _ => block?) true s t :=
    passes_of_forall fun a r hr hne => h.eq_none_of_head fun c hc => hs c <| by
      rw [List.head?_append_of_ne_nil _ hne] at hc
      exact hr ▸ List.mem_append_right a (List.mem_of_mem_head? hc)
  exact blocksFrom_prose hpasses

theorem blocksFrom_trim (h : IsReader block? Written) (t : List Char) :
    blocksFrom block? 0 (trim t) = blocksFrom block? 0 t := by
  obtain ⟨v, w, hv, hw, ht⟩ := exists_eq_append_trim t
  conv => rhs; rw [ht]
  rw [h.blocksFrom_append_blanks hw, h.blocksFrom_blanks_append hv]

end IsReader

theorem isReader_fenced? : IsReader fenced? fun b w => ∃ f : Fence, f.body = b ∧ w = f.text where
  eq_some_iff {t b s} := by
    rw [fenced?_eq_some_iff]
    grind
  first {b w} h := by
    obtain ⟨f, rfl, rfl⟩ := h
    exact ⟨_, _, rfl, by decide⟩
  last {b w} h := by
    obtain ⟨f, rfl, rfl⟩ := h
    have hfence : fence = ['\x60', '\x60'] ++ ['\x60'] := rfl
    exact ⟨_, '\x60', by rw [Fence.text, hfence, ← List.append_assoc], by decide⟩

theorem isReader_marked? :
    IsReader marked? fun b w => ∃ p : MarkerPair, p.text = b ∧ w = p.text where
  eq_some_iff {t b s} := by
    rw [marked?_eq_some_iff]
    grind
  first {b w} h := by
    obtain ⟨p, rfl, rfl⟩ := h
    have hnoBlanks := noBlanks_of_map_fold (p.fold_opening ▸ noBlanks_openingMarker)
    obtain ⟨c, v, hv, -⟩ := List.map_eq_cons_iff.1 p.fold_opening
    rw [hv] at hnoBlanks
    exact ⟨c, _, by rw [MarkerPair.text, hv]; rfl, (noBlanks_cons.1 hnoBlanks).1⟩
  last {b w} h := by
    obtain ⟨p, rfl, rfl⟩ := h
    have hnoBlanks := noBlanks_of_map_fold (p.fold_closing ▸ noBlanks_closingMarker)
    obtain ⟨v, c, hv⟩ : ∃ v c, p.closing = v ++ [c] := by
      refine (List.eq_nil_or_concat' _).resolve_left fun hnil => ?_
      exact absurd (hnil ▸ p.fold_closing) (by decide)
    exact ⟨_, c, by rw [MarkerPair.text, hv, ← List.append_assoc], hnoBlanks c (by simp [hv])⟩

end ArchSketch.Reply
