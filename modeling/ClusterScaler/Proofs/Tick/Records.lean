import ClusterScaler.Proofs.Tick.Frame
import ClusterScaler.Proofs.Tick.Passage

/-!
# Where records come from

The tags in the record of a node are those that the provider answered for that node. So what every
answer tells of a node and its tags holds of every record that a tick reads.
-/

set_option autoImplicit false

namespace ClusterScaler

open Program TickM

/-- The tags of a node, if they are answered, are as they should be. -/
def Question.Tells (good : NodeId → Tags → Prop) : (q : Question) → q.Reply → Prop
  | .request (.nodeTags id), d => ∀ tags, d.answer = .ok tags → good id tags
  | _, _ => True

/-- The protocol of answers that tell of tags as they should be. -/
def telling (good : NodeId → Tags → Prop) : Protocol TickAsk TickAsk.Reply Unit where
  permits _ _ := True
  follows _ a r _ := a.question.Tells good r

variable {good : NodeId → Tags → Prop}

theorem follows_telling {trace : List TickExchange} (h : ∀ x ∈ trace, x.op.question.Tells good x.reply) :
    Follows (telling good) () trace () := by
  induction trace with
  | nil => exact .nil ()
  | cons x rest ih =>
    exact .cons (h x List.mem_cons_self) (ih fun y hy => h y (List.mem_cons_of_mem _ hy))

namespace Tick

variable {l : ControlLoop}

theorem readNode_tells (id : NodeId) :
    (readNode id).Meets (telling good) (fun node _ _ => ∀ n ∈ node, good n.id n.tags) l () := by
  have hlooks : LooksKept (telling good) fun _ _ => True :=
    fun _ _ _ _ _ => ⟨trivial, fun _ _ _ => trivial⟩
  have hattempt : ∀ (l : ControlLoop) s, True → (request (.nodeTags id)).Meets (telling good)
      (fun (r : ProviderResult Tags) _ _ => (∀ tags, r = .ok tags → good id tags) ∧
        (r.isOk = false → True)) l s :=
    fun _ _ _ => (meets_request (r := .nodeTags id)).mpr
      ⟨trivial, fun _ _ htells => ⟨htells, fun _ => trivial⟩⟩
  unfold readNode
  rw [TickM.meets_bind]
  refine (meets_retrying hattempt
    (fun d _ _ _ => frame_request (hlooks (.pause d) rfl) trivial) trivial).mono ?_
  intro tags l' _ htags
  cases tags with
  | error e =>
    intro n hn
    cases hn
  | ok tags =>
    dsimp only
    rw [TickM.meets_bind]
    refine (frame_retrying hlooks
      (fun _ _ _ => frame_request (hlooks (.isRunning id) rfl) trivial) trivial).mono ?_
    intro running l'' _ _
    cases running with
    | error e =>
      intro n hn
      cases hn
    | ok running =>
      rintro n ⟨⟩
      exact htags tags rfl

theorem readNodes_tells (ids seen : List NodeId) :
    (readNodes seen ids).Meets (telling good)
      (fun result _ _ => ∀ nodes, result = .ok nodes → ∀ n ∈ nodes, good n.id n.tags) l () := by
  induction ids generalizing seen l with
  | nil =>
    rintro nodes ⟨⟩ n hn
    cases hn
  | cons id rest ih =>
    unfold readNodes
    split
    · rintro nodes ⟨⟩
    · rw [TickM.meets_bind]
      refine (readNode_tells id).mono ?_
      intro node l' _ hnode
      rw [TickM.meets_bind]
      refine (ih (id :: seen)).mono ?_
      intro result l'' _ hothers
      cases result with
      | error e => rintro nodes ⟨⟩
      | ok others =>
        rintro nodes ⟨⟩ n hn
        rcases List.mem_append.mp hn with hn | hn
        · exact hnode n (Option.mem_toList.mp hn)
        · exact hothers others rfl n hn

theorem reconcile_tells :
    reconcile.Meets (telling good)
      (fun result _ _ => ∀ nodes, result = .ok nodes → ∀ n ∈ nodes, good n.id n.tags) l () := by
  have hlooks : LooksKept (telling good) fun _ _ => True :=
    fun _ _ _ _ _ => ⟨trivial, fun _ _ _ => trivial⟩
  unfold reconcile
  rw [TickM.meets_bind, meets_get, TickM.meets_bind]
  refine (frame_retrying hlooks
    (fun _ _ _ => frame_request (hlooks (.listNodes _) rfl) trivial) trivial).mono ?_
  intro ids l' _ _
  cases ids with
  | error e => rintro nodes ⟨⟩
  | ok ids => exact readNodes_tells ids []

end Tick

/-- Every record of a reading is as the answers tell. -/
theorem Reading.tells {files : FileStore} {now : Nat} {time : Duration} {before : ControlLoop}
    (r : Reading files now time before) (good : NodeId → Tags → Prop)
    (h : ∀ x ∈ r.trace, x.op.question.Tells good x.reply) : ∀ n ∈ r.nodes, good n.id n.tags :=
  Tick.reconcile_tells.result r.runs (follows_telling h) r.nodes rfl

end ClusterScaler
