import ArchSketch.Proofs.Json.Members

/-! Changes to the members of an object. Their order, which of its names a field goes by, and
members that name no field make no difference to what a record reads. A field that is given twice,
under one name or under two, is refused at the second place, whatever stands there. -/
namespace ArchSketch.Json.Record

variable {φ : Type} [DecidableEq φ]

def names (r : Record φ) (f : φ) : List String := r.name f :: r.aliases f

def HasDistinctNames (r : Record φ) : Prop := ∀ f, ∀ key ∈ r.names f, r.field? key = some f

/-- A change that makes no difference, if `alters` makes none to the value of a field. As the order
is free, the other changes are those to the first member. -/
inductive Edit (r : Record φ) (alters : φ → Node → Node → Prop) :
    List (Key × Node) → List (Key × Node) → Prop
  | order {ms ms' : List (Key × Node)} : ms.Perm ms' → Edit r alters ms ms'
  | rename {f : φ} {key key' : String} {n : Node} {ms : List (Key × Node)} :
    key ∈ r.names f → key' ∈ r.names f →
      Edit r alters ((.name key, n) :: ms) ((.name key', n) :: ms)
  | insert {m : Key × Node} {ms : List (Key × Node)} : r.IsForeign m → Edit r alters ms (m :: ms)
  | alter {f : φ} {key : String} {n n' : Node} {ms : List (Key × Node)} :
    key ∈ r.names f → alters f n n' → Edit r alters ((.name key, n) :: ms) ((.name key, n') :: ms)

/-- Gives a field, which `name` is the first name of, once more. The flaw is that of the value
which now stands first, if it is not of the field's kind. -/
inductive Repeats (r : Record φ) (name : String) :
    List (Key × Node) → List (Key × Node) → (flaw? : Option DecodeError) → Prop
  | after {f : φ} {key key' : String} {pre mid post : List (Key × Node)} {n n' : Node} :
    r.name f = name → key ∈ r.names f → key' ∈ r.names f →
      Repeats r name (pre ++ (.name key, n) :: (mid ++ post))
        (pre ++ (.name key, n) :: (mid ++ (.name key', n') :: post)) none
  | before {f : φ} {key key' : String} {pre mid post : List (Key × Node)} {n n' : Node}
    {v : r.Value f} :
    r.name f = name → key ∈ r.names f → key' ∈ r.names f → r.decode f n' = .ok v →
      Repeats r name (pre ++ (mid ++ (.name key, n) :: post))
        (pre ++ (.name key', n') :: (mid ++ (.name key, n) :: post)) none
  | spoiled {f : φ} {key key' : String} {pre mid post : List (Key × Node)} {n n' : Node}
    {e : DecodeError} :
    r.name f = name → key ∈ r.names f → key' ∈ r.names f → r.decode f n' = .error e →
      Repeats r name (pre ++ (mid ++ (.name key, n) :: post))
        (pre ++ (.name key', n') :: (mid ++ (.name key, n) :: post)) (some e)

variable {r : Record φ}

theorem readMember_filled {d : r.Draft} {key : Key} {f : φ} (hf : r.fieldOf key = some f)
    (hfilled : (d f).isSome) (n : Node) :
    r.readMember d (key, n) = .error (.duplicateField (r.name f)) := by
  cases key with
  | name key =>
    have hfield : r.field? key = some f := hf
    simp [readMember, hfield, hfilled]
  | lone => cases hf
  | missing => cases hf

theorem readMember_open {d : r.Draft} {key : Key} {f : φ} (hf : r.fieldOf key = some f)
    (hopen : d f = none) (n : Node) :
    r.readMember d (key, n) = (r.decode f n).map (d.set f) := by
  cases key with
  | name key =>
    have hfield : r.field? key = some f := hf
    simp only [readMember, hfield, hopen]
    rfl
  | lone => cases hf
  | missing => cases hf

theorem readMembers_error {pre post : List (Key × Node)} {m : Key × Node} {d : r.Draft}
    {e : DecodeError} (hpre : pre.foldlM r.readMember (Draft.empty r) = .ok d)
    (hm : r.readMember d m = .error e) (open? : Option Flaw) :
    r.readMembers (pre ++ m :: post) open? = .error e := by
  unfold readMembers
  rw [List.foldlM_append, hpre]
  simp only [bind, Except.bind, List.foldlM_cons, hm]

theorem eq_none_iff_under_eq_nil {ms : List (Key × Node)} {d : r.Draft}
    (h : ms.foldlM r.readMember (Draft.empty r) = .ok d) (f : φ) :
    d f = none ↔ r.under f ms = [] := by
  have hfills := (foldlM_readMember_eq_ok.1 h).2 f
  rcases hunder : r.under f ms with _ | ⟨n, _ | ⟨n', ns⟩⟩
  · rw [hunder] at hfills
    exact iff_of_true hfills rfl
  · rw [hunder] at hfills
    obtain ⟨-, v, -, hfilled⟩ := hfills
    have hfilled : d f = some v := hfilled
    simp [hfilled]
  · rw [hunder] at hfills
    obtain ⟨-, v, -, hclash, -⟩ := hfills
    cases hclash

section

variable (hnames : r.HasDistinctNames)

include hnames

theorem HasDistinctNames.fieldOf {f : φ} {key : String} (hkey : key ∈ r.names f) :
    r.fieldOf (.name key) = some f :=
  hnames f key hkey

theorem Edit.readMembers {alters : φ → Node → Node → Prop}
    (halters : ∀ f n n' v, alters f n n' → r.decode f n = .ok v → r.decode f n' = .ok v)
    {ms ms' : List (Key × Node)} (h : r.Edit alters ms ms') {value : (f : φ) → r.Value f}
    (hread : r.readMembers ms none = .ok value) : r.readMembers ms' none = .ok value := by
  obtain ⟨-, hreadable, hgives⟩ := readMembers_eq_ok.1 hread
  refine readMembers_eq_ok.2 ⟨rfl, ?_⟩
  cases h with
  | order hperm =>
    exact ⟨fun m hm => hreadable m (hperm.mem_iff.2 hm),
      fun f => (hgives f).perm (hperm.filterMap _)⟩
  | @rename f key key' n ms hkey hkey' =>
    have hf := hnames.fieldOf hkey
    have hf' := hnames.fieldOf hkey'
    refine ⟨List.forall_mem_cons.2 ⟨.inl (by simp [hf']), (List.forall_mem_cons.1 hreadable).2⟩,
      fun g => ?_⟩
    have hg := hgives g
    simp only [under, List.filterMap_cons, hf] at hg
    simpa only [under, List.filterMap_cons, hf'] using hg
  | insert hforeign =>
    refine ⟨List.forall_mem_cons.2 ⟨.inr hforeign, hreadable⟩, fun g => ?_⟩
    rw [under_cons_ne (by simp [hforeign.fieldOf])]
    exact hgives g
  | @alter f key n n' ms hkey halter =>
    have hf := hnames.fieldOf hkey
    refine ⟨List.forall_mem_cons.2 ⟨.inl (by simp [hf]), (List.forall_mem_cons.1 hreadable).2⟩,
      fun g => ?_⟩
    have hg := hgives g
    by_cases hfg : f = g
    · subst hfg
      rw [under_cons_self hf] at hg ⊢
      generalize r.under f ms = ns at hg ⊢
      cases hg with
      | alone hv => exact .alone (halters f n n' _ halter hv)
    · have hne : r.fieldOf (.name key) ≠ some g := by simpa [hf] using hfg
      rw [under_cons_ne hne] at hg ⊢
      exact hg

theorem exists_before {pre post : List (Key × Node)} {key : String} {n : Node} {f : φ}
    {last : r.Draft} (hkey : key ∈ r.names f)
    (hlast : (pre ++ (.name key, n) :: post).foldlM r.readMember (Draft.empty r) = .ok last) :
    ∃ d v, pre.foldlM r.readMember (Draft.empty r) = .ok d ∧ d f = none ∧
      r.decode f n = .ok v := by
  have hf := hnames.fieldOf hkey
  rw [List.foldlM_append, bind_eq_ok] at hlast
  obtain ⟨d, hd, hlast⟩ := hlast
  rw [List.foldlM_cons, bind_eq_ok] at hlast
  obtain ⟨d', hd', -⟩ := hlast
  rcases readMember_eq_ok.1 hd' with ⟨hforeign, -⟩ | ⟨g, v, hg, hopen, hv, -⟩
  · cases hforeign.fieldOf.symm.trans hf
  · obtain rfl : f = g := Option.some.inj (hf.symm.trans hg)
    exact ⟨d, v, hd, hopen, hv⟩

theorem readMembers_spoilt {pre post : List (Key × Node)} {key : String} {n n' : Node} {f : φ}
    {e : DecodeError} (hkey : key ∈ r.names f) {value : (f : φ) → r.Value f}
    (hread : r.readMembers (pre ++ (.name key, n) :: post) none = .ok value)
    (hn : ∀ v, r.decode f n = .ok v → r.decode f n' = .error e) (open? : Option Flaw) :
    r.readMembers (pre ++ (.name key, n') :: post) open? = .error e := by
  obtain ⟨last, hlast, -⟩ := bind_eq_ok.1 hread
  obtain ⟨d, v, hd, hopen, hv⟩ := exists_before hnames hkey hlast
  apply readMembers_error hd
  rw [readMember_open (hnames.fieldOf hkey) hopen, hn v hv]
  rfl

/-- A field that is given twice is refused at the second place, unless the first value spoils the
reading before. -/
theorem Repeats.readMembers {name : String} {ms ms' : List (Key × Node)}
    {flaw? : Option DecodeError} (h : r.Repeats name ms ms' flaw?) {value : (f : φ) → r.Value f}
    (hread : r.readMembers ms none = .ok value) (open? : Option Flaw) :
    r.readMembers ms' open? = .error (flaw?.getD (.duplicateField name)) := by
  obtain ⟨last, hlast, -⟩ := bind_eq_ok.1 hread
  cases h with
  | @after f key key' pre mid post n n' hname hkey hkey' =>
    rw [← List.cons_append, ← List.append_assoc, List.foldlM_append, bind_eq_ok] at hlast
    obtain ⟨d, hd, -⟩ := hlast
    have hfilled : (d f).isSome := by
      rw [Option.isSome_iff_ne_none, Ne, eq_none_iff_under_eq_nil hd, under_append,
        under_cons_self (hnames.fieldOf hkey)]
      simp
    rw [← List.cons_append, ← List.append_assoc,
      readMembers_error hd (readMember_filled (hnames.fieldOf hkey') hfilled n'), hname]
    rfl
  | @before f key key' pre mid post n n' v hname hkey hkey' hv =>
    rw [← List.append_assoc] at hlast
    obtain ⟨d, -, hd, hopen, -⟩ := exists_before hnames hkey hlast
    -- as the order is free, the new member may be read after all that precede the old one
    have hinserted : (pre ++ (.name key', n') :: mid).foldlM r.readMember (Draft.empty r) =
        .ok (d.set f v) := by
      have hlast : ((pre ++ mid) ++ [(Key.name key', n')]).foldlM r.readMember (Draft.empty r) =
          .ok (d.set f v) := by
        rw [List.foldlM_append, hd]
        simp only [bind, Except.bind, List.foldlM_cons, List.foldlM_nil,
          readMember_open (hnames.fieldOf hkey') hopen, hv]
        rfl
      apply foldlM_readMember_perm hlast
      rw [List.append_assoc]
      exact (List.perm_append_singleton _ _).append_left pre
    have hfilled : (d.set f v f).isSome := by simp [Draft.set_self]
    rw [← List.cons_append, ← List.append_assoc,
      readMembers_error hinserted (readMember_filled (hnames.fieldOf hkey) hfilled n), hname]
    rfl
  | @spoiled f key key' pre mid post n n' e hname hkey hkey' he =>
    rw [← List.append_assoc] at hlast
    obtain ⟨d, -, hd, hopen, -⟩ := exists_before hnames hkey hlast
    have hunder : r.under f (pre ++ mid) = [] := (eq_none_iff_under_eq_nil hd f).1 hopen
    rw [under_append, List.append_eq_nil_iff] at hunder
    rw [List.foldlM_append, bind_eq_ok] at hd
    obtain ⟨d₁, hd₁, -⟩ := hd
    apply readMembers_error hd₁
    rw [readMember_open (hnames.fieldOf hkey') ((eq_none_iff_under_eq_nil hd₁ f).2 hunder.1), he]
    rfl

end

end ArchSketch.Json.Record
