import ArchSketch.Proofs.Designer.Outcome

/-! Dialogues. A caller puts one request after the other, and adds each request and the turn that
came back to the conversation. What the model is told is then what was said so far, exchange by
exchange: the texts of the turns, and the diagrams that were drawn just as the renderer got them. -/
namespace ArchSketch.Dialogue

open Files

structure Step where
  designer : Designer
  request : String
  /-- What others do to the disk before the request. -/
  meanwhile : Disk → Disk
  now : Moment

/-- What can be seen of a request: the prompts that were sent, the model's answers to them, what
the backend was given, and what was returned. -/
structure Exchange where
  request : String
  asked : List (List Message)
  answers : List (Except ModelError String)
  drawn : List (String × ImageFormat)
  reply : DesignReply

namespace Step

def session (p : Step) (disk : Disk) : Session := ⟨⟨p.meanwhile disk, p.now, []⟩, []⟩

def exchange (p : Step) (reply : DesignReply) (after : Session) : Exchange :=
  ⟨p.request, after.asked, after.asked.map p.designer.model, after.drawn, reply⟩

def perform (p : Step) (history : Conversation) : StateM Disk Exchange := fun disk =>
  let (reply, after) := (p.designer.design p.request history).run (p.session disk)
  (p.exchange reply after, after.disk)

end Step

/-- Performs the steps in their order, from a conversation that has been held before. -/
def hold : List Step → Conversation → StateM Disk (List Exchange)
  | [], _ => return []
  | p :: ps, history => do
    let e ← p.perform history
    let es ← hold ps ((history.add (.user p.request)).add e.reply.turn)
    return e :: es

/-- What the assistant is quoted with after an exchange. -/
inductive Exchange.Quoted (e : Exchange) : String → Prop
  | drawn {reply source : String} {format : ImageFormat} (houtcome : e.reply.outcome = .succeeded)
    (hanswer : e.answers = [.ok reply]) (hdrawn : e.drawn = [(source, format)]) :
    e.Quoted ((extract reply).explanation ++ "\n\n```plantuml\n" ++ source ++ "\n```")
  | explained {reply : String} (houtcome : e.reply.outcome = .noDiagramFound)
    (hanswer : e.answers = [.ok reply]) (hne : (extract reply).explanation ≠ "") :
    e.Quoted (extract reply).explanation
  | unexplained {reply message : String} (houtcome : e.reply.outcome = .noDiagramFound)
    (hanswer : e.answers = [.ok reply]) (hempty : (extract reply).explanation = "")
    (hmessage : e.reply.result.verdict.message? = some message) : e.Quoted message
  | failed {message : String}
    (houtcome : e.reply.outcome = .modelFailed ∨ e.reply.outcome = .renderFailed)
    (hmessage : e.reply.result.verdict.message? = some message) : e.Quoted message

/-- Exchanges as later prompts repeat them. -/
inductive Transcript : List Exchange → List Message → Prop
  | nil : Transcript [] []
  | cons {e : Exchange} {text : String} {es : List Exchange} {said : List Message}
    (hquoted : e.Quoted text) (hrest : Transcript es said) :
    Transcript (e :: es) (⟨.user, e.request⟩ :: ⟨.assistant, text⟩ :: said)

theorem ofTurn_presenting {source : String} (hne : source ≠ "")
    (htrim : Text.trimEnd source.toList = source.toList) (text request explanation : String)
    (artifact : Artifact) :
    Prompt.ofTurn (.presenting text (.drawn request explanation source artifact)) =
      ⟨.assistant, text ++ "\n\n```plantuml\n" ++ source ++ "\n```"⟩ := by
  have hfenced : Prompt.fenced source = "```plantuml\n" ++ source ++ "\n```" := by
    rw [Prompt.fenced, htrim, String.ofList_toList]
  have hcontent : Prompt.content (.presenting text (.drawn request explanation source artifact)) =
      text ++ "\n\n" ++ Prompt.fenced source := by
    simp [Prompt.content, Turn.presenting, Design.drawn, Verdict.isDrawn, hne]
  have hbreak : "\n\n```plantuml\n" = "\n\n" ++ "```plantuml\n" := rfl
  rw [Prompt.ofTurn, hcontent, hfenced, hbreak, ← String.append_assoc, ← String.append_assoc,
    ← String.append_assoc]
  rfl

theorem turn_of_noDiagramFound (request explanation source message : String)
    (clarificationNeeded : Bool) :
    (DesignReply.of .noDiagramFound
      (.failed request explanation source message clarificationNeeded)).turn =
      .assistant (if explanation = "" then message else explanation) := by
  by_cases hempty : explanation = ""
  · simp [DesignReply.of, DesignReply.turnFor, Design.failed, Verdict.message?, hempty]
  · simp [DesignReply.of, DesignReply.turnFor, Design.failed, hempty]

theorem exists_quoted {p : Step} {history : Conversation} {disk : Disk} {reply : DesignReply}
    {after : Session} (h : p.designer.Ends p.request history (p.session disk) reply after) :
    ∃ text, (p.exchange reply after).Quoted text ∧
      Prompt.ofTurn reply.turn = ⟨.assistant, text⟩ := by
  have hanswers : ∀ {text}, p.designer.model (Prompt.assemble p.request history) = .ok text →
      [p.designer.model (Prompt.assemble p.request history)] = [.ok text] := by
    rintro text hmodel
    rw [hmodel]
  cases h with
  | modelFailed hmodel => exact ⟨_, .failed (.inl rfl) rfl, rfl⟩
  | renderFailed hmodel hsource hfile => exact ⟨_, .failed (.inr rfl) rfl, rfl⟩
  | @noDiagramFound text hmodel hsource =>
    by_cases hempty : (extract text).explanation = ""
    · refine ⟨_, .unexplained rfl (hanswers hmodel) hempty rfl, ?_⟩
      rw [turn_of_noDiagramFound, if_pos hempty]
      rfl
    · refine ⟨_, .explained rfl (hanswers hmodel) hempty, ?_⟩
      rw [turn_of_noDiagramFound, if_neg hempty]
      rfl
  | succeeded hmodel hsource hfile =>
    refine ⟨_, .drawn rfl (hanswers hmodel) (Renderer.drawn_of_file hfile), ?_⟩
    -- the fence drops blanks at the end of a source, and a repaired one has none there
    exact ofTurn_presenting (normalize_ne_empty _) (trimEnd_normalize _) _ _ _ _

/-- Exchanges of which each was asked for with what was said before it. -/
inductive Remembers : List Message → List Exchange → Prop
  | nil {said : List Message} : Remembers said []
  | cons {said : List Message} {e : Exchange} {text : String} {es : List Exchange}
    (hasked : e.asked = [⟨.system, Prompt.instructions⟩ :: said ++ [⟨.user, e.request⟩]])
    (hquoted : e.Quoted text)
    (hrest : Remembers (said ++ [⟨.user, e.request⟩, ⟨.assistant, text⟩]) es) :
    Remembers said (e :: es)

theorem hold_cons {p : Step} {history : Conversation} {disk : Disk} {reply : DesignReply}
    {after : Session}
    (h : (p.designer.design p.request history).run (p.session disk) = (reply, after))
    (ps : List Step) :
    (hold (p :: ps) history).run disk =
      let rest := (hold ps ((history.add (.user p.request)).add reply.turn)).run after.disk
      (p.exchange reply after :: rest.1, rest.2) := by
  have hperform : (p.perform history).run disk = (p.exchange reply after, after.disk) := by
    dsimp only [Step.perform, StateT.run] at h ⊢
    rw [h]
  rw [hold, StateT.run_bind, hperform]
  rfl

theorem remembers_hold (ps : List Step) (history : Conversation) (disk : Disk) :
    Remembers (history.map Prompt.ofTurn) ((hold ps history).run disk).1 := by
  induction ps generalizing history disk with
  | nil => exact .nil
  | cons p ps ih =>
    have h := p.designer.design_ends p.request history (p.session disk)
    rcases hresult : (p.designer.design p.request history).run (p.session disk) with ⟨reply, after⟩
    rw [hresult] at h
    rw [hold_cons hresult]
    obtain ⟨text, hquoted, hturn⟩ := exists_quoted h
    -- the next request finds the conversation longer by this one and its turn
    have hsaid : ((history.add (.user p.request)).add reply.turn).map Prompt.ofTurn =
        history.map Prompt.ofTurn ++ [⟨.user, p.request⟩, ⟨.assistant, text⟩] := by
      simp only [Conversation.add, List.map_append, List.map_cons, List.map_nil, hturn,
        List.append_assoc, List.cons_append, List.nil_append]
      rfl
    refine .cons h.asked hquoted ?_
    have hrest := ih ((history.add (.user p.request)).add reply.turn) after.disk
    rwa [hsaid] at hrest

theorem Remembers.asked_get {said : List Message} {es : List Exchange} (h : Remembers said es)
    (k : Fin es.length) :
    ∃ since, Transcript (es.take k) since ∧
      (es.get k).asked = [⟨.system, Prompt.instructions⟩ :: (said ++ since) ++
        [⟨.user, (es.get k).request⟩]] := by
  induction h with
  | nil => exact k.elim0
  | @cons said e text es hasked hquoted hrest ih =>
    refine Fin.cases ?_ (fun k => ?_) k
    · refine ⟨[], .nil, ?_⟩
      rw [List.append_nil]
      exact hasked
    · obtain ⟨since, hsince, hk⟩ := ih k
      refine ⟨_, .cons hquoted hsince, ?_⟩
      simpa using hk

theorem map_request_hold (ps : List Step) (history : Conversation) (disk : Disk) :
    ((hold ps history).run disk).1.map (·.request) = ps.map (·.request) := by
  induction ps generalizing history disk with
  | nil => rfl
  | cons p ps ih =>
    rcases hresult : (p.designer.design p.request history).run (p.session disk) with ⟨reply, after⟩
    rw [hold_cons hresult]
    exact congrArg (p.request :: ·) (ih _ _)

/-- In a dialogue from the start, the model is sent one prompt a request: the instructions, what
was said in the exchanges before, and the request. -/
theorem asked_hold (ps : List Step) (disk : Disk) :
    let exchanges := ((hold ps []).run disk).1
    exchanges.map (·.request) = ps.map (·.request) ∧
      ∀ k : Fin exchanges.length, ∃ said, Transcript (exchanges.take k) said ∧
        (exchanges.get k).asked = [⟨.system, Prompt.instructions⟩ :: said ++
          [⟨.user, (exchanges.get k).request⟩]] := by
  intro exchanges
  have hremembers : Remembers [] exchanges := remembers_hold ps [] disk
  refine ⟨map_request_hold ps [] disk, fun k => ?_⟩
  exact hremembers.asked_get k

end ArchSketch.Dialogue
