import ArchSketch.Proofs.Designer.Dialogue

/-! The records of a session against what really happens. A backend may keep an account of its calls
in a file of its own: the account then tells of the calls in the record and of no others. A model
leaves no trace, so it is told apart by its answers: only those to the recorded prompts matter. -/
namespace ArchSketch

open Files

variable {place : Location} {note : Option ByteArray → String × ImageFormat → Option ByteArray}

/-- Every call adds to the file at the place, by what the file held and what the backend was
given. -/
def Backend.Notes (b : Backend) (place : Location)
    (note : Option ByteArray → String × ImageFormat → Option ByteArray) : Prop :=
  ∀ s source format,
    (b s source format).2.content? place = note (s.content? place) (source, format)

def Backend.noting (b : Backend) (name : Segment)
    (note : Option ByteArray → String × ImageFormat → ByteArray) : Backend :=
  fun s source format =>
    let (answer, after) := b s source format
    (answer, after.put [name] (.file (note (s.content? [name]) (source, format)) false))

theorem Backend.notes_noting (b : Backend) (name : Segment)
    (note : Option ByteArray → String × ImageFormat → ByteArray) :
    (b.noting name note).Notes [name] fun held call => some (note held call) := by
  intro s source format
  have hput (after : Store) (content : ByteArray) :
      (after.put [name] (.file content false)).get? [name] = some (.file content false) := by
    change Folder.get? [name] (after.root.put name (.file content false)) = _
    rw [Folder.get?_singleton, Folder.lookup_put, if_pos rfl]
  rw [Store.content?, Store.file?]
  dsimp only [noting]
  rw [hput]
  rfl

theorem Renderer.FileEnds.content? {r : Renderer} {source : String} {w after : Workplace}
    {result : Except RenderFailure Artifact} (h : r.FileEnds source w result after)
    (hnotes : r.backend.Notes place note)
    (hplace : place ≠ Path.location (r.artifactAt w.now).path) :
    after.disk.store.content? place =
      note (w.disk.store.content? place) (source, r.format) := by
  refine Eq.trans ?_ (hnotes w.disk.store source r.format)
  change _ = (r.afterBackend source w).disk.store.content? place
  rw [Store.content?, Store.content?, Store.file?_eq, Store.file?_eq]
  rcases h.others hplace with hsame | ⟨-, hnone, hnew⟩
  · rw [hsame]
  · rw [hnone, hnew]
    rfl

/-- What a request adds to the record of drawings is what its backend accounts for. -/
theorem Designer.Ends.exists_calls {d : Designer} {request : String} {history : Conversation}
    {s after : Session} {reply : DesignReply} (h : d.Ends request history s reply after)
    (hnotes : d.renderer.backend.Notes place note)
    (hplace : place ≠ Path.location (d.renderer.artifactAt s.now).path) :
    ∃ calls, after.drawn = s.drawn ++ calls ∧
      after.disk.store.content? place = calls.foldl note (s.disk.store.content? place) := by
  have hfiled {source : String} {result : Except RenderFailure Artifact} {w : Workplace}
      (hfile : d.renderer.file source s.toWorkplace = (result, w)) :
      w.disk.store.content? place =
        note (s.disk.store.content? place) (source, d.renderer.format) := by
    have hends := d.renderer.file_ends source s.toWorkplace
    change Renderer.FileEnds _ _ _ (d.renderer.file source s.toWorkplace).1
      (d.renderer.file source s.toWorkplace).2 at hends
    rw [hfile] at hends
    exact hends.content? hnotes hplace
  cases h with
  | modelFailed | noDiagramFound => exact ⟨[], (List.append_nil _).symm, rfl⟩
  | renderFailed hmodel hsource hfile | succeeded hmodel hsource hfile =>
    exact ⟨_, Renderer.drawn_of_file hfile, hfiled hfile⟩

namespace Dialogue

structure Step.Accounts (p : Step) (place : Location)
    (note : Option ByteArray → String × ImageFormat → Option ByteArray) : Prop where
  notes : p.designer.renderer.backend.Notes place note
  artifact : place ≠ Path.location (p.designer.renderer.artifactAt p.now).path
  meanwhile : ∀ disk, (p.meanwhile disk).store.content? place = disk.store.content? place

/-- After a dialogue the account tells of the drawings on record, in their order. -/
theorem content?_hold {ps : List Step} (h : ∀ p ∈ ps, p.Accounts place note)
    (history : Conversation) (disk : Disk) :
    ((hold ps history).run disk).2.store.content? place =
      (((hold ps history).run disk).1.flatMap (·.drawn)).foldl note
        (disk.store.content? place) := by
  induction ps generalizing history disk with
  | nil => rfl
  | cons p ps ih =>
    obtain ⟨hp, hps⟩ := List.forall_mem_cons.1 h
    have hends := p.designer.design_ends p.request history (p.session disk)
    rcases hresult : (p.designer.design p.request history).run (p.session disk) with ⟨reply, after⟩
    rw [hresult] at hends
    obtain ⟨calls, hdrawn, haccount⟩ := hends.exists_calls hp.notes hp.artifact
    have hexchange : (p.exchange reply after).drawn = calls := hdrawn
    have hstart : (p.session disk).disk.store.content? place = disk.store.content? place :=
      hp.meanwhile disk
    rw [hold_cons hresult]
    dsimp only
    rw [ih hps, haccount, hstart, List.flatMap_cons, hexchange, List.foldl_append]

end Dialogue

/-- A request comes to the same with two models that answer the recorded prompt alike. -/
theorem Designer.design_congr {m m' : Model} {r : Renderer} {request : String}
    {history : Conversation} {s : Session}
    (h : ∀ prompt ∈ (((⟨m, r⟩ : Designer).design request history).run s).2.asked.drop
      s.asked.length, m prompt = m' prompt) :
    ((⟨m', r⟩ : Designer).design request history).run s =
      ((⟨m, r⟩ : Designer).design request history).run s := by
  have hasked := (design_ends ⟨m, r⟩ request history s).asked
  rw [hasked, List.drop_left] at h
  have hanswer := h _ (List.mem_singleton_self _)
  -- the model has no other part in a request than in what it is asked
  have hask : (⟨m', r⟩ : Designer).ask (Prompt.assemble request history) =
      (⟨m, r⟩ : Designer).ask (Prompt.assemble request history) :=
    funext fun s => congrArg (·, _) hanswer.symm
  unfold design
  rw [hask]

namespace Dialogue

def Step.to (p : Step) (m : Model) : Step := { p with designer := ⟨m, p.designer.renderer⟩ }

/-- A dialogue is the same with models that answer the recorded prompts alike. -/
theorem hold_congr {ps : List Step} (model : Step → Model) {history : Conversation} {disk : Disk}
    (h : List.Forall₂ (fun p e => ∀ prompt ∈ e.asked, p.designer.model prompt = model p prompt)
      ps ((hold ps history).run disk).1) :
    (hold (ps.map fun p => p.to (model p)) history).run disk = (hold ps history).run disk := by
  induction ps generalizing history disk with
  | nil => rfl
  | cons p ps ih =>
    rcases hresult : (p.designer.design p.request history).run (p.session disk) with ⟨reply, after⟩
    rw [hold_cons hresult] at h ⊢
    obtain ⟨hp, hps⟩ := List.forall₂_cons.1 h
    have hsame : ((p.to (model p)).designer.design p.request history).run (p.session disk) =
        (reply, after) := by
      refine (Designer.design_congr (m := p.designer.model) fun prompt hprompt => ?_).trans hresult
      rw [hresult] at hprompt
      exact hp prompt hprompt
    have hrest := ih hps
    have hexchange : (p.to (model p)).exchange reply after = p.exchange reply after :=
      congrArg (fun answers => (⟨p.request, after.asked, answers, after.drawn, reply⟩ : Exchange))
        (List.map_congr_left fun prompt hprompt => (hp prompt hprompt).symm)
    rw [List.map_cons, hold_cons hsame, hexchange]
    dsimp only [Step.to] at hrest ⊢
    rw [hrest]

end Dialogue
end ArchSketch
