import ClusterScaler.Api.Routes
import ClusterScaler.Proofs.Config.Validation
import ClusterScaler.Proofs.Load.Records

/-!
# What a request does

Only amounts that are finite and not negative pass the checks of heartbeats and demand. A response
from code 400 on comes with the feeds as they were; of the others, a heartbeat changes one record, a
demand replaces the demand, and a command joins those that wait. This is said once, in
`Api.handle_effect`: an `Api.Effect` names what a request was for and what it left behind, so that
what holds of every request needs no look at the routes.
-/

set_option autoImplicit false

namespace ClusterScaler

open Float.Model in
/-- Of the finite doubles, those that are not below zero are from zero on. -/
theorem isFeedable_iff {x : Float} : isFeedable x = true ↔ x.isFinite = true ∧ 0 ≤ x := by
  have hlt : (x < 0) ↔ x.toModel.unpack.lt (.zero .positive) = true :=
    ⟨of_decide_eq_true, fun h => decide_eq_true h⟩
  have hle : (0 ≤ x) ↔ (UnpackedFloat.zero .positive).le x.toModel.unpack = true :=
    ⟨of_decide_eq_true, fun h => decide_eq_true h⟩
  have hfin : x.isFinite = x.toModel.unpack.isFinite := rfl
  rw [isFeedable, Bool.and_eq_true, Bool.not_eq_true', decide_eq_false_iff_not, hlt, hle, hfin]
  cases x.toModel.unpack with
  | infinity s => exact ⟨fun h => (nomatch h.1), fun h => (nomatch h.1)⟩
  | notANumber => exact ⟨fun h => (nomatch h.1), fun h => (nomatch h.1)⟩
  | zero s => cases s <;> decide
  | finite s m e hm =>
    cases s with
    | positive => exact ⟨fun h => ⟨h.1, rfl⟩, fun h => ⟨h.1, Bool.false_ne_true⟩⟩
    | negative => exact ⟨fun h => absurd rfl h.2, fun h => (nomatch h.2)⟩

/-- Every amount is finite and not negative. -/
def Resources.Feedable (r : Resources Float) : Prop :=
  ∀ e ∈ r.toList, e.2.isFinite = true ∧ 0 ≤ e.2

theorem Resources.feedable_empty : (∅ : Resources Float).Feedable := by
  intro e he
  cases he

theorem checkAmounts_eq_ok_iff {part : String} {r : Resources Float} :
    checkAmounts part r = .ok () ↔ r.Feedable := by
  have hfind : r.toList.find? (fun e => !isFeedable e.2) = none ↔ r.Feedable := by
    simp [List.find?_eq_none, Resources.Feedable, isFeedable_iff]
  rw [← hfind]
  unfold checkAmounts
  split
  · next hbad => simp [hbad]
  · next hnone => simp [hnone]

theorem checkBundles_eq_ok_iff {i : Nat} {demand : Demand Float} :
    checkBundles i demand = .ok () ↔ ∀ b ∈ demand, b.Feedable := by
  induction demand generalizing i with
  | nil => simp [checkBundles]
  | cons b rest ih =>
    have hcheck : checkAmounts ("bundle " ++ natText i) b = .ok () ↔ b.Feedable :=
      checkAmounts_eq_ok_iff
    rw [List.forall_mem_cons, ← hcheck, ← ih (i := i + 1), checkBundles]
    cases checkAmounts ("bundle " ++ natText i) b with
    | error why => exact ⟨fun h => (nomatch h), fun h => (nomatch h.1)⟩
    | ok _ => exact ⟨fun h => ⟨rfl, h⟩, fun h => h.2⟩

namespace ClusterConfig

variable {c c' : ClusterConfig} {files : FileStore}

theorem checked_eq_ok_iff : c.checked files = .ok c' ↔ c.validate files = .ok () ∧ c' = c := by
  unfold checked
  split
  · next hvalid => rw [hvalid, Except.ok.injEq, eq_comm]; simp
  · next fault hfault => simp [hfault]

/-- Whatever overrides there are, the configuration read from a file is valid with them. -/
theorem validate_of_ofFile {lookup : String → Option String} {path : String}
    (h : ofFile files lookup path = .ok c) : c.validate files = .ok () := by
  unfold ofFile at h
  split at h
  · cases h
  split at h
  · cases h
  split at h
  · cases h
  · obtain ⟨hvalid, rfl⟩ := checked_eq_ok_iff.mp h
    exact hvalid

end ClusterConfig

namespace Feeds

variable {f f' : Feeds}

/-- A heartbeat that is taken in names only amounts that pass, and changes only the records. -/
theorem beat_eq_ok {h : Heartbeat} {now : Nat} (hbeat : f.beat h now = .ok f') :
    h.used.Feedable ∧ h.available.Feedable ∧
      f' = { f with loads := (f.loads.recordHeartbeat h.node h.used h.available now).1 } := by
  unfold beat at hbeat
  split at hbeat
  · cases hbeat
  · obtain ⟨⟨⟩, hused, hbeat⟩ := except_bind_eq_ok_iff.mp hbeat
    obtain ⟨⟨⟩, havailable, hbeat⟩ := except_bind_eq_ok_iff.mp hbeat
    refine ⟨checkAmounts_eq_ok_iff.mp hused, checkAmounts_eq_ok_iff.mp havailable, ?_⟩
    split at hbeat
    · next loads hrecord =>
      cases hbeat
      rw [hrecord]
    · cases hbeat

theorem setDemand_eq_ok_iff {demand : Demand Float} :
    f.setDemand demand = .ok f' ↔ (∀ b ∈ demand, b.Feedable) ∧ f' = { f with demand } := by
  rw [← checkBundles_eq_ok_iff (i := 0), setDemand]
  cases checkBundles 0 demand with
  | error why => exact ⟨fun h => (nomatch h), fun h => (nomatch h.1)⟩
  | ok _ => exact ⟨fun h => ⟨rfl, (Except.ok.inj h).symm⟩, fun h => congrArg Except.ok h.2.symm⟩

/-- A proposal is the valid configuration of the file, of the cluster that is published if one
is. -/
theorem proposal_eq_ok {files : FileStore} {lookup : String → Option String} {path : Option String}
    {c : ClusterConfig} (h : f.proposal files lookup path = .ok c) :
    (∃ p, path = some p ∧ ClusterConfig.ofFile files lookup p = .ok c) ∧
      c.validate files = .ok () ∧
      (f.status.clusterName ≠ "" → c.clusterName = f.status.clusterName) := by
  unfold proposal at h
  split at h
  · cases h
  · next p =>
    split at h
    · cases h
    · next c' hfile =>
      dsimp only at h
      split at h
      · cases h
      · next hname =>
        cases h
        refine ⟨⟨p, rfl, hfile⟩, ClusterConfig.validate_of_ofFile hfile, fun hne => ?_⟩
        have hpublished : (!f.status.clusterName.isEmpty) = true := by simpa using hne
        rw [Bool.and_eq_true, not_and, bne_iff_ne, Decidable.not_not] at hname
        exact (hname hpublished).symm

end Feeds

namespace Api

/-- A request by POST for a path, whatever query follows it. -/
def Request.Posts (r : Request) (path : String) : Prop := r.method = "POST" ∧ r.path = path

instance (r : Request) (path : String) : Decidable (r.Posts path) :=
  inferInstanceAs (Decidable (_ ∧ _))

/-- The commands that a request may give: the reset of the breaker, or the configuration that the
file holds, where it is valid and does not rename the published cluster. -/
def Orders (s : Setting) (f : Feeds) (r : Request) : ControlCommand → Prop
  | .resetBreaker => r.Posts "/api/v1/breaker/reset"
  | .reconfigure c =>
    r.Posts "/api/v1/reload" ∧
      (∃ path, s.configPath = some path ∧
        ClusterConfig.ofFile s.files s.environment path = .ok c) ∧
      c.validate s.files = .ok () ∧
      (f.status.clusterName ≠ "" → c.clusterName = f.status.clusterName)

/-- What a request does: the code of its response, and the feeds after it. -/
inductive Effect (s : Setting) (f : Feeds) (r : Request) : Option Nat → Feeds → Prop
  | refused {code : Nat} (hcode : 400 ≤ code) : Effect s f r (some code) f
  | told (hread : r.method ≠ "POST") : Effect s f r (some 200) f
  | heard (h : Heartbeat) (hpost : r.Posts "/api/v1/heartbeats") (hused : h.used.Feedable)
      (havailable : h.available.Feedable) : Effect s f r (some 200)
        { f with loads := (f.loads.recordHeartbeat h.node h.used h.available s.now).1 }
  | demanded (demand : Demand Float) (hpost : r.Posts "/api/v1/demand")
      (hread : Demand.ofText r.body = .ok demand) (hbundles : ∀ b ∈ demand, b.Feedable) :
      Effect s f r (some 200) { f with demand }
  | ordered (c : ControlCommand) (horder : Orders s f r c) :
      Effect s f r (some 202) { f with commands := f.commands ++ [c] }
  /-- There is no room for one more command. -/
  | waiting (hruns : s.loopRuns = true) (hfull : Feeds.queueCapacity ≤ f.commands.length) :
      Effect s f r none f

theorem refusalCode_ge (why : Refusal) : 400 ≤ refusalCode why := by
  cases why <;> simp [refusalCode]

theorem Failure.response_code_ge (why : Failure) : 400 ≤ why.response.code := by
  cases why with
  | unreadable fault => cases fault <;> decide
  | refused why => exact refusalCode_ge why
  | _ => simp [Failure.response]

theorem Request.value_eq_ok {α : Type} {read : String → Except ReadFault α} {r : Request} {a : α}
    (h : r.value read = .ok a) : read r.body = .ok a := by
  unfold value at h
  split at h
  · cases h
  split at h
  · cases h
  cases hread : read r.body with
  | error fault => rw [hread] at h; cases h
  | ok a' => rw [hread] at h; exact congrArg _ (Except.ok.inj h)

/-- A request is refused, or it is what one of the routes asks for. -/
theorem outcome_cases (s : Setting) (f : Feeds) (r : Request) :
    (∃ why, outcome s f r = .failed why) ∨
      ∃ route ∈ routes, r.path = route.path ∧ r.method ∈ route.methods ∧
        outcome s f r = perform s f r route.operation := by
  unfold outcome
  split
  · exact .inl ⟨_, rfl⟩
  · split
    · exact .inl ⟨_, rfl⟩
    · next route hroute =>
      have hthere := List.mem_of_find?_eq_some hroute
      obtain ⟨hmem, hpath⟩ := List.mem_filter.mp hthere
      have hmethod := List.find?_some hroute
      exact .inr ⟨route, hmem, (beq_iff_eq.mp hpath).symm, List.contains_iff_mem.mp hmethod, rfl⟩

/-- What a request has to look like to ask for an operation. -/
def Operation.Asked (r : Request) : Operation → Prop
  | recordHeartbeat => r.Posts "/api/v1/heartbeats"
  | setDemand => r.Posts "/api/v1/demand"
  | resetBreaker => r.Posts "/api/v1/breaker/reset"
  | reload => r.Posts "/api/v1/reload"
  | readDemand | readStatus | readNodes | readLoad | readMetrics => r.method ≠ "POST"

theorem Route.eq_post {route : Route} (hpost : route.method = "POST") {m : String}
    (hm : m ∈ route.methods) : m = "POST" := by
  simpa [Route.methods, hpost] using hm

theorem Route.ne_post {route : Route} (hget : route.method = "GET") {m : String}
    (hm : m ∈ route.methods) : m ≠ "POST" := by
  have hreads : m = "GET" ∨ m = "HEAD" := by simpa [Route.methods, hget] using hm
  rcases hreads with rfl | rfl <;> decide

theorem asked_of_mem_routes {r : Request} {route : Route} (hroute : route ∈ routes)
    (hpath : r.path = route.path) (hmethod : r.method ∈ route.methods) :
    route.operation.Asked r := by
  simp only [routes, List.mem_cons, List.not_mem_nil, or_false] at hroute
  rcases hroute with rfl | rfl | rfl | rfl | rfl | rfl | rfl | rfl | rfl
  · exact ⟨Route.eq_post rfl hmethod, hpath⟩
  · exact ⟨Route.eq_post rfl hmethod, hpath⟩
  · exact Route.ne_post rfl hmethod
  · exact Route.ne_post rfl hmethod
  · exact Route.ne_post rfl hmethod
  · exact Route.ne_post rfl hmethod
  · exact ⟨Route.eq_post rfl hmethod, hpath⟩
  · exact ⟨Route.eq_post rfl hmethod, hpath⟩
  · exact Route.ne_post rfl hmethod

/-- The code that an outcome is answered with. -/
def Outcome.code? : Outcome → Option Nat
  | .done response _ => some response.code
  | .failed why => some why.response.code
  | .waiting => none

/-- The feeds after an outcome. -/
def Outcome.feeds (f : Feeds) : Outcome → Feeds
  | .done _ f' => f'
  | .failed _ | .waiting => f

theorem handle_code (s : Setting) (f : Feeds) (r : Request) :
    (handle s f r).1.map (·.code) = (outcome s f r).code? := by
  unfold handle
  cases outcome s f r <;> rfl

theorem handle_feeds (s : Setting) (f : Feeds) (r : Request) :
    (handle s f r).2 = (outcome s f r).feeds f := by
  unfold handle
  cases outcome s f r <;> rfl

variable {s : Setting} {f : Feeds} {r : Request}

/-- What an outcome leaves is the effect of the request. -/
abbrev Outcome.Effective (s : Setting) (f : Feeds) (r : Request) (o : Outcome) : Prop :=
  Effect s f r o.code? (o.feeds f)

theorem effective_failed (why : Failure) : Outcome.Effective s f r (.failed why) :=
  .refused why.response_code_ge

/-- A change that is not refused has to be the effect of the request. -/
theorem effective_ofChange {data : Json} {change : Except Refusal Feeds}
    (h : ∀ f', change = .ok f' → Effect s f r (some 200) f') :
    Outcome.Effective s f r (.ofChange data change) := by
  cases change with
  | error why => exact effective_failed _
  | ok f' => exact h f' rfl

/-- A command that a request may give joins those that wait, unless there is no room or no loop. -/
theorem effective_enqueue {data : List (String × Json)} {c : ControlCommand}
    (horder : Orders s f r c) :
    Outcome.Effective s f r (.ofEnqueuing data (f.enqueue s.loopRuns c)) := by
  unfold Feeds.enqueue
  split
  · exact effective_failed _
  · next hruns =>
    split
    · exact .ordered c horder
    · next hfull => exact .waiting (by simpa using hruns) (Nat.le_of_not_lt hfull)

/-- Every operation does to the feeds what requests for it may do. -/
theorem perform_effective {op : Operation} (hasked : op.Asked r) :
    Outcome.Effective s f r (perform s f r op) := by
  cases op with
  | recordHeartbeat =>
    unfold perform
    dsimp only
    split
    · exact effective_failed _
    · next h hvalue =>
      refine effective_ofChange fun f' hbeat => ?_
      obtain ⟨hused, havailable, rfl⟩ := Feeds.beat_eq_ok hbeat
      exact .heard h hasked hused havailable
  | setDemand =>
    unfold perform
    dsimp only
    split
    · exact effective_failed _
    · next demand hvalue =>
      refine effective_ofChange fun f' hset => ?_
      obtain ⟨hbundles, rfl⟩ := Feeds.setDemand_eq_ok_iff.mp hset
      exact .demanded demand hasked (Request.value_eq_ok hvalue) hbundles
  | resetBreaker => exact effective_enqueue hasked
  | reload =>
    unfold perform
    dsimp only
    split
    · exact effective_failed _
    · next c hproposal => exact effective_enqueue ⟨hasked, Feeds.proposal_eq_ok hproposal⟩
  | readDemand => exact .told hasked
  | readStatus => exact .told hasked
  | readNodes => exact .told hasked
  | readLoad => exact .told hasked
  | readMetrics => exact .told hasked

/-- What any request does to the feeds, and the code of the response to it. -/
theorem handle_effect (s : Setting) (f : Feeds) (r : Request) :
    Effect s f r ((handle s f r).1.map (·.code)) (handle s f r).2 := by
  rw [handle_code, handle_feeds]
  obtain ⟨why, hfailed⟩ | ⟨route, hroute, hpath, hmethod, hperform⟩ := outcome_cases s f r
  · rw [hfailed]
    exact effective_failed why
  · rw [hperform]
    exact perform_effective (asked_of_mem_routes hroute hpath hmethod)

end Api

end ClusterScaler
