import DevOpsAssistant.Generators.Policies
import DevOpsAssistant.Specs.Artifacts

/-!
# What critical findings block

A request for an artifact whose policies find something critical is refused. A request that asks for no
artifact keeps what it has generated all the same.

* `exec_route`: a route does what `persist` does with what has been drafted.
* `unchanged_drafted`: a draft writes no artifact.
* **`critical_blocks_iff`**: when critical findings keep the content out of the database.
-/

namespace DevOps

open Txn

variable (env : Env)

/-! ## Routes -/

/-- What a program does that goes on with what it has drafted, from the end of the draft. -/
theorem exec_of_drafted {δ : Type} {p : Db User} {c : User → Db String} {d : User → Db δ}
    {f : δ → String} (hc : ∀ u, c u = f <$> d u) {s s₁ : Session Row World} {user : User}
    {content : String}
    (h : (p >>= fun u => (do return (u, ← c u) : Db (User × String))).exec respond s =
      (.ok (user, content), s₁)) :
    ∃ x, f x = content ∧ ∀ {α : Type} (g : User → δ → Db α),
      (p >>= fun u => d u >>= fun x => g u x).exec respond s = (g user x).exec respond s₁ := by
  simp only [hc, Prog.bind_eq, Prog.pure_eq, Prog.map_eq, Prog.exec_bind] at h ⊢
  rcases hp : p.exec respond s with ⟨_ | u, s'⟩
  · rw [hp] at h
    simp at h
  rw [hp] at h
  simp only at h ⊢
  rcases hd : (d u).exec respond s' with ⟨_ | x, s''⟩
  · rw [hd] at h
    simp at h
  rw [hd] at h
  simp only [Prog.exec, Prod.mk.injEq, Except.ok.injEq] at h
  obtain ⟨⟨rfl, hx⟩, rfl⟩ := h
  exact ⟨x, hx, fun _ => rfl⟩

/-- **A route** does what `persist` does with what has been drafted. -/
theorem exec_route (r : GeneratorRequest) {s s₁ : Session Row World} {user : User} {content : String}
    (h : (r.drafted env).exec respond s = (.ok (user, content), s₁)) :
    ∃ (name : String) (body : List PolicyFinding × Option UUID → GeneratorResponseBody),
      (r.route env).exec respond s =
        (persist env user r.options r.artifactType content name >>= fun out =>
          pure (body out)).exec respond s₁ := by
  cases r with
  | dockerfile access payload =>
    obtain ⟨x, rfl, hx⟩ := exec_of_drafted (f := fun x : DockerfileDraft => x.content)
      (fun _ => rfl) h
    simp only [GeneratorRequest.route, DockerGeneratorService.generate, bind_assoc, pure_bind]
    exact ⟨_, _, hx _⟩
  | kubernetes access payload =>
    obtain ⟨x, rfl, hx⟩ := exec_of_drafted (f := id) (fun _ => (id_map _).symm) h
    simp only [GeneratorRequest.route, KubernetesGeneratorService.generate, bind_assoc, pure_bind]
    exact ⟨_, _, hx _⟩
  | pipeline access payload =>
    obtain ⟨x, rfl, hx⟩ := exec_of_drafted (f := fun x : String × String => x.1) (fun _ => rfl) h
    simp only [GeneratorRequest.route, PipelineGeneratorService.generate, bind_assoc, pure_bind]
    exact ⟨_, _, hx _⟩
  | command access payload =>
    obtain ⟨x, rfl, hx⟩ := exec_of_drafted (f := fun x : String × String => x.1) (fun _ => rfl) h
    simp only [GeneratorRequest.route, ShellCommandService.generate, bind_assoc, pure_bind]
    exact ⟨_, _, hx _⟩

/-! ## Drafts -/

/-- **A draft writes no artifact.** -/
theorem unchanged_drafted (r : GeneratorRequest) (s : Session Row World) :
    Unchanged (· = .generatedArtifacts) s ((r.drafted env).exec respond s).2 := by
  have honly : (r.drafted env).Only (Writes (outside (· = .generatedArtifacts) False))
      fun _ => True :=
    only_bind (only_getCurrentUser env r.access) fun user =>
      only_bind (only_draft env (fun _ h => nomatch h) user r) fun _ => trivial
  exact unchanged_of_only honly s

/-! ## Critical findings -/

/-- A request for an artifact with critical findings is refused. -/
theorem ends_persist_blocked {user : User} {payload : GeneratorSaveOptions} {type : ArtifactType}
    {content : String} (name : String) {s : Session Row World} {fs : List PolicyFinding}
    (hfs : ((requestedFindings env user payload type content).exec respond s).1 = .ok fs)
    (hblocks : blocksSave env fs = true) (hsave : payload.saveArtifact = true) :
    (persist env user payload type content name).Ends respond s fun r s' =>
      (∃ e, r = .error e) ∧ s' = s := by
  have hfindings : (requestedFindings env user payload type content).Ends respond s fun r s' =>
      r = .ok fs ∧ s' = s := ⟨hfs, (ends_requestedFindings env user payload type content).1⟩
  have happly : (applyGeneratorPoliciesAndSave env user payload type content name).Ends respond s
      fun r s' => (∃ e, r = .error e) ∧ s' = s := by
    refine hfindings.bind (fun fs' s' h => ?_) fun e s' h => by cases h.1
    obtain ⟨hr, rfl⟩ := h
    cases hr
    simp only [hsave, hblocks, if_true]
    exact ⟨⟨_, rfl⟩, rfl⟩
  refine happly.bind (fun _ s' h => ?_) fun e s' h => ⟨⟨e, rfl⟩, h.2⟩
  obtain ⟨⟨_, hr⟩, -⟩ := h
  cases hr

/-- A request without an artifact keeps the content, in a row of its own. -/
theorem ends_persist_kept {user : User} {payload : GeneratorSaveOptions} {type : ArtifactType}
    {content : String} (name : String) {s : Session Row World} {fs : List PolicyFinding}
    (hfs : ((requestedFindings env user payload type content).exec respond s).1 = .ok fs)
    (hsave : payload.saveArtifact = false)
    (hdrawn : ∀ a ∈ rowsOf GeneratedArtifact s.view, a.id < s.nextId) :
    (persist env user payload type content name).Ends respond s fun r s' => r = .ok (fs, none) ∧
      ∃ a ∈ rowsOf GeneratedArtifact s'.view, a.content = content ∧ a.id = s.nextId := by
  have hfindings : (requestedFindings env user payload type content).Ends respond s fun r s' =>
      r = .ok fs ∧ s' = s := ⟨hfs, (ends_requestedFindings env user payload type content).1⟩
  have happly : (applyGeneratorPoliciesAndSave env user payload type content name).Ends respond s
      fun r s' => r = .ok (fs, none) ∧ s' = s := by
    refine hfindings.bind (fun fs' s' h => ?_) fun e s' h => by cases h.1
    obtain ⟨hr, hs⟩ := h
    cases hr
    simp only [hsave, Bool.false_eq_true, if_false]
    exact ⟨rfl, hs⟩
  refine happly.bind (fun out s' h => ?_) fun e s' h => by cases h.1
  obtain ⟨hr, rfl⟩ := h
  cases hr
  simp only [hsave, Bool.false_eq_true, if_false, ArtifactRepository.createArtifact, bind_assoc]
  refine ends_uuid4.mpr (ends_now.mpr (ends_now.mpr ((ends_insertOf ?_).mpr ⟨rfl, ?_⟩)))
  · refine clashes_eq_false fun r hr hk => ?_
    cases r with
    | generatedArtifact a => exact (hdrawn a (mem_rowsOf.mpr hr)).ne (congrArg Key.id hk)
    | _ => cases congrArg Key.table hk
  · exact ⟨_, mem_rowsOf.mpr (mem_view_append _ _), rfl, rfl⟩

/-- **Critical findings keep the content out of the database** exactly when the request asks for an
artifact. -/
theorem critical_blocks_iff (hblock : env.settings.blockArtifactSaveOnCriticalPolicyFailure = true)
    (r : GeneratorRequest) (s : State)
    (hdrawn : ∀ a ∈ rowsOf GeneratedArtifact s.committed, a.id < s.nextId)
    {user : User} {content : String} {s₁ : Session Row World} {fs : List PolicyFinding}
    (hdraft : (r.drafted env).exec respond s.session = (.ok (user, content), s₁))
    (hfs : ((requestedFindings env user r.options r.artifactType content).exec respond s₁).1 = .ok fs)
    (hcritical : hasCriticalFindings fs = true) :
    (∀ a ∈ rowsOf GeneratedArtifact (s.serve respond (GeneratorRequest.serve env) r).2.committed,
      a.content = content → a ∈ rowsOf GeneratedArtifact s.committed) ↔
      r.options.saveArtifact = true := by
  have hblocks : blocksSave env fs = true := by simp [blocksSave, hblock, hcritical]
  have hs₁ : Unchanged (· = .generatedArtifacts) s.session s₁ := by
    have h := unchanged_drafted env r s.session
    rwa [hdraft] at h
  obtain ⟨name, body, hroute⟩ := exec_route env r hdraft
  have hserve : (s.serve respond (GeneratorRequest.serve env) r).2.committed =
      ((GeneratorRequest.serve env r).exec respond s.session).2.committed := rfl
  rw [hserve, GeneratorRequest.serve, getDb, Prog.exec_unitOfWork, hroute, Prog.bind_eq, Prog.exec_bind]
  by_cases hsave : r.options.saveArtifact = true
  · obtain ⟨⟨e, he⟩, hs⟩ := ends_persist_blocked env name hfs hblocks hsave
    rcases hp : (persist env user r.options r.artifactType content name).exec respond s₁ with ⟨o, s₂⟩
    rw [hp] at he hs
    obtain rfl : s₂ = s₁ := hs
    obtain rfl : o = .error e := he
    simp only [Session.committed_rollback, hs₁.committed, Store.committed_session, hsave, iff_true]
    exact fun a ha _ => ha
  · have hsave : r.options.saveArtifact = false := by simpa using hsave
    have hview : ∀ a ∈ rowsOf GeneratedArtifact s₁.view, a.id < s₁.nextId := fun a ha =>
      (hdrawn a ((hs₁.mem rfl).mp ha)).trans_le hs₁.nextId
    obtain ⟨hok, a, ha, hcontent, hid⟩ := ends_persist_kept env name hfs hsave hview
    rcases hp : (persist env user r.options r.artifactType content name).exec respond s₁ with ⟨o, s₂⟩
    rw [hp] at hok ha
    obtain rfl : o = .ok (fs, none) := hok
    simp only [hsave, Bool.false_eq_true, iff_false]
    intro h
    have hlt := hdrawn a (h a ha hcontent)
    rw [hid] at hlt
    exact absurd hlt (Nat.not_lt.mpr hs₁.nextId)

/-! ## A critical rule about the tag `latest` -/

/-- A rule about every file, whose findings are critical. -/
def latestRule : PolicyRule :=
  { gitlabRule with resourceType := "general", severity := .critical }

/-- A database with the organization, its member and a pack with this rule. -/
def latestState : State :=
  { State.trial with
    nextId := 6
    committed := Table.empty.apply [
      .store (toRow policyUser),
      .store (toRow (⟨2, "o", "o", 1, 0, 0, none⟩ : Organization)),
      .store (toRow (⟨3, 2, 1, .owner, 0, 0⟩ : OrganizationMember)),
      .store (toRow gitlabPack), .store (toRow latestRule)] }

/-- The member's request for the pipeline, with the save flag `save`. -/
def latestRequest (save : Bool) : GeneratorRequest :=
  .pipeline (.jwt ⟨some 1, 1, .access, 3600, none⟩) { gitlabRequest with saveArtifact := save }

/-- The file the request is answered with. -/
def latestContent : String := (PipelineGenerator.file Env.ascii gitlabRequest).1

/-- The session after the file has been drafted. -/
def latestDrafted : Session Row World :=
  { latestState.session with world := latestState.session.world.tick }

theorem exec_drafted_latest (save : Bool) :
    ((latestRequest save).drafted Env.ascii).exec respond latestState.session =
      (.ok (policyUser, latestContent), latestDrafted) := rfl

theorem critical_latest (save : Bool) : ∃ fs,
    ((requestedFindings Env.ascii policyUser (latestRequest save).options
      (latestRequest save).artifactType latestContent).exec respond latestDrafted).1 = .ok fs ∧
    hasCriticalFindings fs = true := by
  refine ⟨PolicyService.packFindings Env.ascii [(gitlabPack, [latestRule])] "github-actions"
    latestContent, rfl, ?_⟩
  obtain ⟨f, hf, hseverity⟩ := ruleFindings_latest Env.ascii latestRule rfl
    latest_gitlabRequest "github-actions" gitlabPack.id
  have hfindings : PolicyService.packFindings Env.ascii [(gitlabPack, [latestRule])] "github-actions"
      latestContent = [f] := by
    rw [← hf]
    simp [PolicyService.packFindings, evaluatePolicyRules, evaluateRule, PolicyEngine.matchesResource,
      latestRule, gitlabRule, latestContent]
  rw [hfindings, hasCriticalFindings, List.any_cons, hseverity]
  rfl

/-- **The file is kept in spite of its critical finding**, if no artifact has been asked for. -/
theorem critical_pipeline_kept :
    (∃ fs, ((requestedFindings Env.ascii policyUser (latestRequest false).options
      (latestRequest false).artifactType latestContent).exec respond latestDrafted).1 = .ok fs ∧
      hasCriticalFindings fs = true) ∧
    ∃ a ∈ rowsOf GeneratedArtifact (latestState.serve respond (GeneratorRequest.serve Env.ascii)
      (latestRequest false)).2.committed, a.content = latestContent ∧
      a ∉ rowsOf GeneratedArtifact latestState.committed := by
  have hkept : (rowsOf GeneratedArtifact (latestState.serve respond
      (GeneratorRequest.serve Env.ascii) (latestRequest false)).2.committed).map (·.content) =
      [latestContent] := rfl
  have hnone : rowsOf GeneratedArtifact latestState.committed = [] := rfl
  obtain ⟨a, ha, hcontent⟩ := List.mem_map.mp (hkept ▸ List.mem_singleton_self latestContent)
  exact ⟨critical_latest false, a, ha, hcontent, hnone ▸ List.not_mem_nil⟩

/-- Asked for an artifact, the same request keeps nothing. -/
theorem critical_blocks_iff_latest : ∃ fs,
    ((requestedFindings Env.ascii policyUser (latestRequest true).options
      (latestRequest true).artifactType latestContent).exec respond latestDrafted).1 = .ok fs ∧
    hasCriticalFindings fs = true ∧
    ((∀ a ∈ rowsOf GeneratedArtifact (latestState.serve respond (GeneratorRequest.serve Env.ascii)
      (latestRequest true)).2.committed, a.content = latestContent →
        a ∈ rowsOf GeneratedArtifact latestState.committed) ↔
      (latestRequest true).options.saveArtifact = true) := by
  obtain ⟨fs, hfs, hcritical⟩ := critical_latest true
  exact ⟨fs, hfs, hcritical, critical_blocks_iff Env.ascii rfl (latestRequest true) latestState
    (by decide) (exec_drafted_latest true) hfs hcritical⟩

end DevOps
