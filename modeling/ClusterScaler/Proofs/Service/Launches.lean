import ClusterScaler.Proofs.Service.Updates
import Mathlib.Data.List.Forall2
import Mathlib.Data.List.Perm.Basic

/-!
# What launch orders still owe

A launch order asks for nodes with its own tags only, never for more than are still to come, and
reports no failure only once none is. So the nodes that are held and those that are still owed can
be counted together, and nothing that goes on beside a tick changes the sum, or raises it.
-/

set_option autoImplicit false

namespace ClusterScaler

open Program

/-- How many nodes a request has created. -/
def Request.created : (r : Request) → r.Reply → Nat
  | .createNodes _ _ n, .ok () => n
  | _, _ => 0

/-- What a launch order may ask for; what is watched is how many nodes are still to come. -/
def owing (tags : Tags) : Protocol Request Request.Reply Nat where
  permits k r := ∃ template n, r = .createNodes template tags n ∧ n ≤ k
  follows k r reply k' := k' = k - r.created reply

/-- The rest of a launch order still owes at most so many nodes with these tags, and all of them
have come when it reports no failure. -/
def Owes (tags : Tags) (k : Nat) (rest : Routine LaunchReport) : Prop :=
  rest.Meets (owing tags) (fun report k => report.error = none → k = 0) k

theorem owes_batches {o : LaunchOrder} (hbatch : 0 < o.batch) {fuel launched : Nat}
    (hfuel : o.count ≤ launched + fuel) (hlaunched : launched ≤ o.count) :
    Owes o.tags (o.count - launched) (o.batches fuel launched) := by
  induction fuel generalizing launched with
  | zero =>
    intro _
    omega
  | succ fuel ih =>
    unfold LaunchOrder.batches
    split
    · next hmore =>
      refine ⟨⟨o.template, _, rfl, Nat.min_le_left _ _⟩, ?_⟩
      rintro reply k' hk'
      cases reply with
      | error e => exact fun hnone => nomatch hnone
      | ok _ =>
        have hrest : k' = o.count - (launched + min (o.count - launched) o.batch) := by
          have hcreated : k' = o.count - launched - min (o.count - launched) o.batch := hk'
          omega
        rw [hrest]
        apply ih <;> omega
    · intro _
      omega

/-- A launch order owes all its nodes at its start. -/
theorem owes_routine {o : LaunchOrder} (hbatch : 0 < o.batch) : Owes o.tags o.count o.routine :=
  owes_batches hbatch (Nat.le_add_left _ _) (Nat.zero_le _)

/-- An order that is answered owes what has not been created. -/
theorem Owes.answered {tags : Tags} {k : Nat} {r : Request} {next : r.Reply → Routine LaunchReport}
    (h : Owes tags k (.ask r next)) (reply : r.Reply) :
    (∃ template n, r = .createNodes template tags n ∧ n ≤ k) ∧
      Owes tags (k - r.created reply) (next reply) :=
  ⟨h.1, h.2 reply _ rfl⟩

namespace Service

/-- What works on the nodes keeps to its work. -/
structure Sound (s : Service) : Prop where
  numbered : s.provider.Numbered
  updaters : ∀ x ∈ s.updaters, x.update.OnItsWay x.rest
  launches : ∀ rest ∈ s.launches, ∃ tags k, Owes tags k rest

variable {outside : InMemory → InMemory → Prop} {s s' : Service}

theorem mem_updaters_goOn {u : Update} {others : List Updater} {rest : Routine UpdateResult}
    {x : Updater} (h : x ∈ (s.goOn u others rest).updaters) :
    x ∈ others ∨ x = ⟨u, rest⟩ := by
  cases rest with
  | done result => exact .inl h
  | ask r next => exact (List.mem_cons.mp h).symm

theorem provider_goOn (s : Service) (u : Update) (others : List Updater)
    (rest : Routine UpdateResult) :
    (s.goOn u others rest).provider = s.provider ∧ (s.goOn u others rest).launches = s.launches := by
  cases rest <;> exact ⟨rfl, rfl⟩

/-- An answer on the way of an updater leaves the same nodes. -/
theorem Sound.tended (h : s.Sound) {u : Update} {r : Request}
    {next : r.Reply → Routine UpdateResult} {others : List Updater} {reply : r.Reply} {p : InMemory}
    (hperm : s.updaters.Perm (⟨u, .ask r next⟩ :: others)) (hreplies : s.provider.Replies r reply p) :
    s.provider.Tended p ∧ p.made = s.provider.made := by
  have hway : u.OnItsWay (.ask r next) :=
    h.updaters ⟨u, .ask r next⟩ (hperm.mem_iff.mpr List.mem_cons_self)
  rcases (hway.answered reply).1 with hminor | rfl
  · refine hreplies.tended ?_ hminor.creates hminor.terminates
    cases r with
    | setNodeTags node tags =>
      intro key hkey
      exact (hminor.tags node tags rfl).2 key (fun heq => hkey (.inl heq))
    | _ => trivial
  · exact hreplies.tended (fun key hkey => Update.finalTags_get?_of_not_progress hkey) rfl rfl

/-- Whatever goes on beside a tick keeps to its work. -/
theorem Sound.step (houtside : ∀ p p', outside p p' → p.Numbered → p'.Numbered) (h : s.Sound)
    (hstep : Step outside s s') : s'.Sound := by
  cases hstep with
  | outside hp => exact ⟨houtside _ _ hp h.numbered, h.updaters, h.launches⟩
  | @launch r next others reply p hperm hreplies =>
    obtain ⟨tags, k, howes⟩ := h.launches _ (hperm.mem_iff.mpr List.mem_cons_self)
    obtain ⟨⟨template, n, rfl, hn⟩, hrest⟩ := howes.answered reply
    refine ⟨(hreplies.onward trivial h.numbered).2.1, h.updaters, ?_⟩
    intro rest hmem
    rcases List.mem_cons.mp hmem with rfl | hmem
    · exact ⟨_, _, hrest⟩
    · exact h.launches rest (hperm.mem_iff.mpr (List.mem_cons_of_mem _ hmem))
  | @update u r next others reply p hperm hreplies =>
    obtain ⟨htended, hmade⟩ := h.tended hperm hreplies
    have hway : u.OnItsWay (.ask r next) :=
      h.updaters ⟨u, .ask r next⟩ (hperm.mem_iff.mpr List.mem_cons_self)
    obtain ⟨hprovider, hlaunches⟩ :=
      provider_goOn { s with provider := p } u others (next reply)
    refine ⟨?_, ?_, ?_⟩
    · rw [hprovider]
      exact h.numbered.of_tended htended hmade
    · intro x hx
      rcases (hway.answered reply).2 with ⟨-, hdone⟩ | ⟨-, hrest⟩
      · rw [hdone] at hx
        exact h.updaters x (hperm.mem_iff.mpr (List.mem_cons_of_mem _ hx))
      · rcases mem_updaters_goOn hx with hx | rfl
        · exact h.updaters x (hperm.mem_iff.mpr (List.mem_cons_of_mem _ hx))
        · exact hrest
    · rw [hlaunches]
      exact h.launches
  | @timeout u rest others hperm =>
    obtain ⟨hprovider, hlaunches⟩ :=
      s.provider_goOn u others (u.conclude (.error (.timeout u.timeout)))
    refine ⟨?_, ?_, ?_⟩
    · rw [hprovider]
      exact h.numbered
    · intro x hx
      rcases mem_updaters_goOn hx with hx | rfl
      · exact h.updaters x (hperm.mem_iff.mpr (List.mem_cons_of_mem _ hx))
      · exact Update.onItsWay_conclude _
    · rw [hlaunches]
      exact h.launches
  | @panic x others hperm =>
    exact ⟨h.numbered, fun y hy => h.updaters y (hperm.mem_iff.mpr (List.mem_cons_of_mem _ hy)),
      h.launches⟩

end Service

end ClusterScaler
