import ClusterScaler.Proofs.Api.Effects
import ClusterScaler.Proofs.Load.Records
import Mathlib.Data.List.Forall2

/-!
# What the feeds hold

Requests are served one after the other, by an interface whose surroundings may change from one to
the next, and in between the control loop tends to the feeds: it takes commands, forgets records
and starts new ones without a usage. After any such history, the demand is that of the last
request whose demand was accepted, no amount in the feeds is negative or not finite, and the commands
that the loop took and those that wait are those of the requests answered by 202, in order.
-/

set_option autoImplicit false

namespace ClusterScaler

/-- Every amount that the feeds hold is finite and not negative. -/
structure Feeds.Feedable (f : Feeds) : Prop where
  demand : ∀ b ∈ f.demand, b.Feedable
  loads : ∀ {node load}, f.loads.get? node = some load →
    load.used.Feedable ∧ load.available.Feedable

/-- Since an earlier store, records may have been dropped and others started without a usage. -/
def LoadStore.Tended (s s' : LoadStore Float) : Prop :=
  ∀ node load, s'.get? node = some load →
    s.get? node = some load ∨ load.used = ∅ ∧ load.available = ∅

/-- What the control loop may do to the feeds: take the first `n` commands, tend to the records,
and publish another status. -/
structure Feeds.Tended (n : Nat) (f f' : Feeds) : Prop where
  demand : f'.demand = f.demand
  commands : f'.commands = f.commands.drop n
  loads : f.loads.Tended f'.loads

/-- A heartbeat changes no record but that of its node. -/
theorem LoadStore.get?_recordHeartbeat {α : Type} [Amount α] {s : LoadStore α} {id node : NodeId}
    {used available : Resources α} {now : Nat} {load : NodeLoad α}
    (h : (s.recordHeartbeat node used available now).1.get? id = some load) :
    s.get? id = some load ∨ load.used = used ∧ load.available = available := by
  by_cases hid : id = node
  · subst hid
    cases haccepted : (s.recordHeartbeat id used available now).2 with
    | false =>
      rw [LoadStore.recordHeartbeat_of_dropped haccepted] at h
      exact .inl h
    | true =>
      cases hold : s.get? id with
      | none =>
        rw [LoadStore.get?_recordHeartbeat_of_none hold] at h
        cases h
        exact .inr ⟨rfl, rfl⟩
      | some l =>
        have hle : l.lastHeartbeat ≤ now := LoadStore.le_of_recordHeartbeat haccepted hold
        rw [LoadStore.get?_recordHeartbeat_of_some hold hle] at h
        cases h
        exact .inr ⟨rfl, rfl⟩
  · rw [LoadStore.get?_recordHeartbeat_of_ne hid] at h
    exact .inl h

theorem Feeds.feedable_new (timeout : Nat) (status : ClusterStatus) :
    ({ loads := LoadStore.new timeout, status } : Feeds).Feedable where
  demand _ hb := by cases hb
  loads hget := by cases hget

/-- To take all commands is to tend to the feeds. -/
theorem Feeds.tended_take (f : Feeds) : f.Tended f.commands.length { f with commands := [] } :=
  ⟨rfl, List.drop_length.symm, fun _ _ => .inl⟩

theorem Feeds.Feedable.tended {n : Nat} {f f' : Feeds} (h : f.Feedable) (htended : f.Tended n f') :
    f'.Feedable where
  demand := htended.demand ▸ h.demand
  loads hget := by
    obtain hold | ⟨hused, havailable⟩ := htended.loads _ _ hget
    · exact h.loads hold
    · rw [hused, havailable]
      exact ⟨Resources.feedable_empty, Resources.feedable_empty⟩

namespace Api

/-- The bundles of a request for a new demand that was accepted. -/
def Request.bundles? (r : Request) (code : Option Nat) : Option (Demand Float) :=
  if r.Posts "/api/v1/demand" ∧ code = some 200 then (Demand.ofText r.body).toOption else none

namespace Effect

variable {s : Setting} {f f' : Feeds} {r : Request} {code : Option Nat}

/-- Where the queue is not full, a request is answered. -/
theorem answered (h : Effect s f r code f')
    (hroom : s.loopRuns = true → f.commands.length < Feeds.queueCapacity) : code.isSome = true := by
  cases h with
  | waiting hruns hfull => exact absurd (hroom hruns) (Nat.not_lt.mpr hfull)
  | _ => rfl

theorem unchanged {c : Nat} (h : Effect s f r (some c) f') (hc : 400 ≤ c) : f' = f := by
  cases h with
  | refused _ => rfl
  | _ => omega

theorem demand_eq (h : Effect s f r code f') : f'.demand = (r.bundles? code).getD f.demand := by
  have hnone : ¬ (r.Posts "/api/v1/demand" ∧ code = some 200) → r.bundles? code = none :=
    fun h => if_neg h
  cases h with
  | refused hcode =>
    rw [hnone (by rintro ⟨-, h⟩; cases h; omega)]
    rfl
  | told hread =>
    rw [hnone fun h => hread h.1.1]
    rfl
  | heard h hpost _ _ =>
    rw [hnone fun h => absurd (hpost.2.symm.trans h.1.2) (by decide)]
    rfl
  | demanded demand hpost hread _ =>
    rw [Request.bundles?, if_pos ⟨hpost, rfl⟩, hread]
    rfl
  | ordered c _ =>
    rw [hnone (by rintro ⟨-, h⟩; cases h)]
    rfl
  | waiting _ _ =>
    rw [hnone (by rintro ⟨-, h⟩; cases h)]
    rfl

theorem feedable (h : Effect s f r code f') (hf : f.Feedable) : f'.Feedable := by
  cases h with
  | heard h _ hused havailable =>
    refine ⟨hf.demand, fun hget => ?_⟩
    obtain hold | ⟨husedeq, havailableeq⟩ := LoadStore.get?_recordHeartbeat hget
    · exact hf.loads hold
    · rw [husedeq, havailableeq]
      exact ⟨hused, havailable⟩
  | demanded demand _ _ hbundles => exact ⟨hbundles, hf.loads⟩
  | ordered c _ => exact ⟨hf.demand, hf.loads⟩
  | _ => exact hf

/-- A command joins the queue exactly with the code 202. -/
theorem commands_cases (h : Effect s f r code f') :
    (code = some 202 ∧ ∃ c, Orders s f r c ∧ f'.commands = f.commands ++ [c]) ∨
      (code ≠ some 202 ∧ f'.commands = f.commands) := by
  cases h with
  | ordered c horder => exact .inl ⟨rfl, c, horder, rfl⟩
  | refused hcode => exact .inr ⟨by rintro ⟨⟩; omega, rfl⟩
  | _ => exact .inr ⟨by decide, rfl⟩

end Effect

/-- A request that was served, with the feeds before and after it. -/
structure Served where
  setting : Setting
  before : Feeds
  request : Request
  response : Option Response
  after : Feeds

namespace Served

/-- How a request is served. -/
def of (s : Setting) (f : Feeds) (r : Request) : Served :=
  ⟨s, f, r, (handle s f r).1, (handle s f r).2⟩

/-- The code of the response, if there is one. -/
def code? (x : Served) : Option Nat := x.response.map (·.code)

/-- The demand that the request replaced the last one by. -/
def bundles? (x : Served) : Option (Demand Float) := x.request.bundles? x.code?

/-- Whether a command may be the one that the request gave. -/
def Gave (x : Served) (c : ControlCommand) : Prop := Orders x.setting x.before x.request c

theorem effect (s : Setting) (f : Feeds) (r : Request) :
    Effect s f r (of s f r).code? (of s f r).after := handle_effect s f r

end Served

/-- A history of the feeds, from those of a new cluster on: the requests served and the commands
that the loop took so far, and the feeds now. Nothing is asked while the queue of a running loop is
full. -/
inductive Feeding : List Served → List ControlCommand → Feeds → Prop
  | start (timeout : Nat) (status : ClusterStatus) :
      Feeding [] [] { loads := LoadStore.new timeout, status }
  | serve {served : List Served} {taken : List ControlCommand} {f : Feeds}
      (h : Feeding served taken f) (s : Setting) (r : Request)
      (hroom : s.loopRuns = true → f.commands.length < Feeds.queueCapacity) :
      Feeding (served ++ [Served.of s f r]) taken (Served.of s f r).after
  | tend {served : List Served} {taken : List ControlCommand} {f f' : Feeds} {n : Nat}
      (h : Feeding served taken f) (htended : f.Tended n f') :
      Feeding served (taken ++ f.commands.take n) f'

/-- What feeds hold after requests were served of which the loop received commands, taken or
waiting. -/
structure Fed (served : List Served) (received : List ControlCommand) (f : Feeds) : Prop where
  answered : ∀ x ∈ served, x.code?.isSome = true
  refused : ∀ x ∈ served, ∀ code, x.code? = some code → 400 ≤ code → x.after = x.before
  demand : f.demand = (served.filterMap Served.bundles?).getLast?.getD []
  feedable : f.Feedable
  commands : List.Forall₂ Served.Gave (served.filter (·.code? = some 202)) received

namespace Fed

variable {served : List Served} {received taken : List ControlCommand} {f : Feeds}

theorem start (timeout : Nat) (status : ClusterStatus) :
    Fed [] [] { loads := LoadStore.new timeout, status } where
  answered _ hx := by cases hx
  refused _ hx := by cases hx
  demand := rfl
  feedable := Feeds.feedable_new timeout status
  commands := .nil

theorem serve (h : Fed served (taken ++ f.commands) f) (s : Setting) (r : Request)
    (hroom : s.loopRuns = true → f.commands.length < Feeds.queueCapacity) :
    Fed (served ++ [Served.of s f r]) (taken ++ (Served.of s f r).after.commands)
      (Served.of s f r).after := by
  have heffect := Served.effect s f r
  refine ⟨?answered, ?refused, ?demand, heffect.feedable h.feedable, ?commands⟩
  case answered =>
    rw [List.forall_mem_append, List.forall_mem_singleton]
    exact ⟨h.answered, heffect.answered hroom⟩
  case refused =>
    rw [List.forall_mem_append, List.forall_mem_singleton]
    refine ⟨h.refused, fun code hcode hge => ?_⟩
    rw [hcode] at heffect
    exact heffect.unchanged hge
  case demand =>
    have hbundles : (Served.of s f r).bundles? = r.bundles? (Served.of s f r).code? := rfl
    rw [heffect.demand_eq, List.filterMap_append, List.getLast?_append, h.demand, ← hbundles]
    cases hb : (Served.of s f r).bundles? with
    | none => simp [hb]
    | some demand => simp [hb]
  case commands =>
    rw [List.filter_append]
    obtain ⟨hcode, c, horder, hcommands⟩ | ⟨hcode, hcommands⟩ := heffect.commands_cases
    · rw [hcommands, ← List.append_assoc]
      refine List.rel_append h.commands ?_
      have hgave : (Served.of s f r).Gave c := horder
      simpa [hcode] using hgave
    · rw [hcommands]
      simpa [hcode] using h.commands

theorem tend {f' : Feeds} {n : Nat} (h : Fed served (taken ++ f.commands) f)
    (htended : f.Tended n f') : Fed served (taken ++ f.commands.take n ++ f'.commands) f' where
  answered := h.answered
  refused := h.refused
  demand := htended.demand.trans h.demand
  feedable := h.feedable.tended htended
  commands := by
    rw [htended.commands, List.append_assoc, List.take_append_drop]
    exact h.commands

end Fed

/-- After any history every request was answered, those from code 400 on changed nothing, the
demand is the last one that was accepted, every amount in the feeds is finite and not negative, and
the commands received are those of the requests answered by 202, in order. -/
theorem Feeding.fed {served : List Served} {taken : List ControlCommand} {f : Feeds}
    (h : Feeding served taken f) : Fed served (taken ++ f.commands) f := by
  induction h with
  | start timeout status => exact .start timeout status
  | serve _ s r hroom ih => exact ih.serve s r hroom
  | tend _ htended ih => exact ih.tend htended

/-- A request for the demand that a text describes. -/
def Request.ofDemand (body : String) : Request :=
  { method := "POST", target := "/api/v1/demand", contentType := some "application/json", body }

/-- A setting without files. -/
def Setting.bare : Setting :=
  { files := .empty, environment := fun _ => none, configPath := none, loopRuns := true, now := 0 }

/-- The breaker is reset, a demand with a negative amount is refused, the loop takes the reset, and a
demand is accepted. -/
theorem Feeding.fed_resetAndDemand :
    ∃ served taken f, Feeding served taken f ∧
      served.map Served.code? = [some 202, some 400, some 200] ∧
      taken.length = 1 ∧ f.demand.length = 1 ∧ Fed served (taken ++ f.commands) f := by
  let status := ClusterStatus.initial "demo" (Breaker.new 3 3).state
  have hreset := (Feeding.start 30 status).serve .bare
    { method := "POST", target := "/api/v1/breaker/reset" } fun _ => by decide
  have hrefused := hreset.serve .bare (.ofDemand "\x7b\"bundles\": [\x7b\"CPU\": -1\x7d]\x7d")
    fun _ => by decide +kernel
  have htaken := hrefused.tend (Feeds.tended_take _)
  have haccepted := htaken.serve .bare (.ofDemand "\x7b\"bundles\": [\x7b\"CPU\": 2\x7d]\x7d")
    fun _ => by decide
  exact ⟨_, _, _, haccepted, by decide +kernel, by decide +kernel, by decide +kernel, haccepted.fed⟩

end Api

end ClusterScaler
