import ClusterScaler.Proofs.Demand.Exact
import ClusterScaler.Proofs.Demand.Further

/-!
# Where the bundles of a demand go

A packing sends every bundle to the first bin with room for it, or nowhere. What becomes of a bin
follows from the bundles that it was sent: they are taken away from it in turn. So over exact amounts
the slack that each of them is granted does not add up, and since what is left of a bin only shrinks,
a bundle that found no room finds none at the end either. `pack_assigns` says all of this together.
-/

set_option autoImplicit false

namespace ClusterScaler

variable {α : Type} [Amount α]

/-- The bin with a further bundle in it. -/
def Bin.take (b : Bin α) (bundle : Resources α) : Bin α := ⟨b.left.subtract bundle, true⟩

/-- The first bin with room for a bundle. -/
def placeOf (bins : List (Bin α)) (bundle : Resources α) : Option Nat :=
  bins.findIdx? (·.left.fits bundle)

/-- Where the bundles of a demand go, each in its turn. -/
def placesOf (bins : List (Bin α)) : List (Resources α) → List (Option Nat)
  | [] => []
  | bundle :: rest => placeOf bins bundle :: placesOf (packInto bins [bundle]).bins rest

/-- The bundles of a demand that have one place, in order. Those of no place are left over. -/
def bundlesAt (demands : List (Resources α)) (places : List (Option Nat)) (place : Option Nat) :
    List (Resources α) :=
  ((demands.zip places).filter (·.2 == place)).map (·.1)

variable {bins : List (Bin α)} {bundle : Resources α} {demands : List (Resources α)}

omit [Amount α] in
theorem bundlesAt_cons (q : Option Nat) (places : List (Option Nat)) (place : Option Nat) :
    bundlesAt (bundle :: demands) (q :: places) place =
      if q = place then bundle :: bundlesAt demands places place
      else bundlesAt demands places place := by
  unfold bundlesAt
  rw [List.zip_cons_cons, List.filter_cons]
  by_cases hq : q = place
  · simp [hq]
  · simp [hq]

theorem placeFirst?_eq (bins : List (Bin α)) (bundle : Resources α) :
    placeFirst? bundle bins =
      (placeOf bins bundle).map (fun i => bins.modify i (·.take bundle)) := by
  unfold placeOf
  induction bins with
  | nil => rfl
  | cons b rest ih =>
    rw [placeFirst?, List.findIdx?_cons]
    split
    · rfl
    · rw [ih, Option.map_map, Option.map_map]
      rfl

/-- To pack one bundle is to take it into the bin of its place. -/
theorem packInto_singleton (bins : List (Bin α)) (bundle : Resources α) :
    packInto bins [bundle] = match placeOf bins bundle with
      | some i => ⟨bins.modify i (·.take bundle), []⟩
      | none => ⟨bins, [bundle]⟩ := by
  rw [packInto, placeFirst?_eq]
  cases placeOf bins bundle with
  | none => rfl
  | some i => rfl

/-- A packing goes on after its first bundle. -/
theorem packInto_cons (bins : List (Bin α)) (bundle : Resources α) (rest : List (Resources α)) :
    packInto bins (bundle :: rest) =
      ⟨(packInto (packInto bins [bundle]).bins rest).bins,
        (packInto bins [bundle]).residual ++
          (packInto (packInto bins [bundle]).bins rest).residual⟩ :=
  packInto_append bins [bundle] rest

theorem placesOf_length (bins : List (Bin α)) (demands : List (Resources α)) :
    (placesOf bins demands).length = demands.length := by
  induction demands generalizing bins with
  | nil => rfl
  | cons bundle rest ih => exact congrArg (· + 1) (ih _)

/-- Every place is that of a bin. -/
theorem lt_of_mem_placesOf {i : Nat} (h : some i ∈ placesOf bins demands) : i < bins.length := by
  induction demands generalizing bins with
  | nil => cases h
  | cons bundle rest ih =>
    rcases List.mem_cons.mp h with hfirst | hrest
    · exact (List.findIdx?_eq_some_iff_getElem.mp hfirst.symm).1
    · have hlt := ih hrest
      rw [packInto_bins_length] at hlt
      exact hlt

/-- The place of a bundle is the first bin that has room for it after those before it. -/
theorem getElem?_placesOf {j : Nat} (h : demands[j]? = some bundle) :
    (placesOf bins demands)[j]? =
      some (placeOf (packInto bins (demands.take j)).bins bundle) := by
  induction demands generalizing bins j with
  | nil => simp at h
  | cons first rest ih =>
    cases j with
    | zero =>
      obtain rfl := Option.some.inj h
      rfl
    | succ j =>
      rw [List.take_succ_cons, packInto_cons]
      exact ih h

/-- What is left over are the bundles of no place. -/
theorem residual_packInto (bins : List (Bin α)) (demands : List (Resources α)) :
    (packInto bins demands).residual = bundlesAt demands (placesOf bins demands) none := by
  induction demands generalizing bins with
  | nil => rfl
  | cons bundle rest ih =>
    rw [packInto_cons, placesOf, bundlesAt_cons, ← ih]
    have hone := packInto_singleton bins bundle
    cases hplace : placeOf bins bundle with
    | none =>
      rw [hplace] at hone
      rw [hone]
      rfl
    | some i =>
      rw [hplace] at hone
      rw [hone]
      rfl

/-- A bin ends as it began, less the bundles that were sent to it. -/
theorem getElem?_packInto_bins (bins : List (Bin α)) (demands : List (Resources α)) (i : Nat) :
    (packInto bins demands).bins[i]? =
      bins[i]?.map (fun b => (bundlesAt demands (placesOf bins demands) (some i)).foldl .take b) := by
  induction demands generalizing bins with
  | nil => simp [packInto, bundlesAt]
  | cons bundle rest ih =>
    rw [packInto_cons, placesOf, bundlesAt_cons, ih]
    have hone := packInto_singleton bins bundle
    cases hplace : placeOf bins bundle with
    | none =>
      rw [hplace] at hone
      rw [hone]
      simp
    | some k =>
      rw [hplace] at hone
      rw [hone, List.getElem?_modify]
      by_cases hk : k = i
      · subst hk
        simp [Function.comp_def]
      · simp [hk]

theorem Bin.used_foldl_take (b : Bin α) (bundles : List (Resources α)) :
    (bundles.foldl .take b).used = (b.used || !bundles.isEmpty) := by
  induction bundles generalizing b with
  | nil => simp
  | cons bundle rest ih =>
    rw [List.foldl_cons, ih]
    simp [Bin.take]

theorem Bin.left_foldl_take (b : Bin α) (bundles : List (Resources α)) :
    (bundles.foldl .take b).left = bundles.foldl .subtract b.left := by
  induction bundles generalizing b with
  | nil => rfl
  | cons bundle rest ih => exact ih _

/-- What holds of a bin at first, and still holds when it takes in a bundle that fits, holds of it at
the end. -/
theorem packInto_keeps (holds : Bin α → Prop)
    (htake : ∀ b, ∀ bundle ∈ demands, holds b → b.left.fits bundle = true →
      holds (b.take bundle)) {i : Nat} (hfirst : ∀ b, bins[i]? = some b → holds b) {b : Bin α}
    (hb : (packInto bins demands).bins[i]? = some b) : holds b := by
  induction demands generalizing bins with
  | nil => exact hfirst b hb
  | cons bundle rest ih =>
    rw [packInto_cons] at hb
    refine ih (fun b d hd => htake b d (List.mem_cons_of_mem _ hd)) (fun b hb => ?_) hb
    rw [packInto_singleton] at hb
    cases hplace : placeOf bins bundle with
    | none =>
      rw [hplace] at hb
      exact hfirst b hb
    | some k =>
      rw [hplace] at hb
      dsimp only at hb
      rw [List.getElem?_modify] at hb
      obtain ⟨c, hc, rfl⟩ := Option.map_eq_some_iff.mp hb
      split
      · next hk =>
        obtain ⟨hlt, hfits, -⟩ := List.findIdx?_eq_some_iff_getElem.mp hplace
        have hcfits : c.left.fits bundle = true := by
          subst hk
          rw [List.getElem?_eq_getElem hlt] at hc
          exact Option.some.inj hc ▸ hfits
        exact htake c bundle List.mem_cons_self (hfirst c hc) hcfits
      · exact hfirst c hc

/-- Each bundle of a demand has gone to the first capacity with room for it, and the others are left
over. -/
structure Assigns (capacities demands : List (Resources α)) (places : List (Option Nat))
    (p : Packing α) : Prop where
  length : places.length = demands.length
  inRange : ∀ i, some i ∈ places → i < capacities.length
  first : ∀ j bundle, demands[j]? = some bundle →
    places[j]? = some (placeOf (pack capacities (demands.take j)).bins bundle)
  residual : p.residual = bundlesAt demands places none
  bins : p.bins.length = capacities.length
  used : ∀ i < capacities.length, (p.used[i]? = some true ↔ bundlesAt demands places (some i) ≠ [])

/-- The places of the bundles in a packing. -/
theorem assigns_placesOf (capacities demands : List (Resources α)) :
    Assigns capacities demands (placesOf (capacities.map (⟨·, false⟩)) demands)
      (pack capacities demands) where
  length := placesOf_length _ demands
  inRange i hi := by simpa using lt_of_mem_placesOf hi
  first j bundle h := getElem?_placesOf h
  residual := residual_packInto _ demands
  bins := by rw [pack, packInto_bins_length, List.length_map]
  used i hi := by
    unfold Packing.used pack
    rw [List.getElem?_map, getElem?_packInto_bins, List.getElem?_map, List.getElem?_eq_getElem hi]
    simp [Bin.used_foldl_take]

section Exact

variable {capacities demands : List (Resources ℚ)}

/-- A bundle that fits leaves nothing further below zero than the slack. -/
theorem Bin.le_left_take {b : Bin ℚ} {bundle : Resources ℚ}
    (h : ∀ name, -(1 / 10 ^ 9) ≤ b.left.get name) (hfits : b.left.fits bundle = true)
    (name : String) : -(1 / 10 ^ 9) ≤ (b.take bundle).left.get name := by
  unfold Bin.take
  rw [Resources.get_subtract]
  cases hnamed : bundle.amounts.get? name with
  | none =>
    have hnothing : bundle.get name = 0 := by
      unfold Resources.get
      rw [hnamed]
      rfl
    have hleft := h name
    linarith
  | some amount =>
    have hmem : (name, amount) ∈ bundle.toList := Table.get?_eq_some_iff.mp hnamed
    have hroom := Resources.fits_iff.mp hfits (name, amount) hmem
    rw [Resources.get_eq_of_mem hmem]
    linarith

/-- A bundle without negative amounts leaves no more than there was. -/
theorem Bin.left_take_le {b : Bin ℚ} {bundle : Resources ℚ} (h : bundle.NonNegative)
    (name : String) : (b.take bundle).left.get name ≤ b.left.get name := by
  unfold Bin.take
  rw [Resources.get_subtract]
  have hpos := h.get name
  linarith

/-- A bundle that is left over fits no bin at the end. -/
theorem not_fits_of_mem_residual {bins : List (Bin ℚ)} (h : ∀ d ∈ demands, d.NonNegative)
    {bundle : Resources ℚ} (hleft : bundle ∈ (packInto bins demands).residual) {b : Bin ℚ}
    (hb : b ∈ (packInto bins demands).bins) : b.left.fits bundle = false := by
  induction demands generalizing bins with
  | nil => cases hleft
  | cons first rest ih =>
    have hrest : ∀ d ∈ rest, d.NonNegative := fun d hd => h d (List.mem_cons_of_mem _ hd)
    rw [packInto_cons] at hleft hb
    rcases List.mem_append.mp hleft with hfirst | hlater
    · rw [packInto_singleton] at hfirst hb
      cases hplace : placeOf bins first with
      | some k =>
        rw [hplace] at hfirst
        cases hfirst
      | none =>
        -- no bin had room for it then, and what is left of a bin only shrinks
        rw [hplace] at hfirst hb
        obtain rfl := List.mem_singleton.mp hfirst
        obtain ⟨i, hi⟩ := List.mem_iff_getElem?.mp hb
        have hnone := List.findIdx?_eq_none_iff.mp hplace
        refine packInto_keeps (fun b => b.left.fits bundle = false)
          (fun b d hd hkept _ => ?_) (fun b hb => hnone b (List.mem_of_getElem? hb)) hi
        rw [← Bool.not_eq_true] at hkept ⊢
        exact fun hfits => hkept (Resources.fits_of_le (Bin.left_take_le (hrest d hd)) hfits)
    · exact ih hrest hlater hb

/-- Over exact amounts a packing of bundles without negative amounts sends each bundle to the first
capacity with room for it or leaves it over, in order. What is left of a capacity is what it has less
all that was sent to it; of a capacity without negative amounts no more is taken than it has and the
slack, once for all bundles; and no bundle that is left over fits what is left of any capacity. -/
theorem pack_assigns (h : ∀ d ∈ demands, d.NonNegative) :
    ∃ places, Assigns capacities demands places (pack capacities demands) ∧
      ∀ i capacity, capacities[i]? = some capacity →
        ∃ b, (pack capacities demands).bins[i]? = some b ∧
          (∀ name, b.left.get name = capacity.get name -
            ((bundlesAt demands places (some i)).map (·.get name)).sum) ∧
          (capacity.NonNegative → ∀ name,
            ((bundlesAt demands places (some i)).map (·.get name)).sum ≤
              capacity.get name + 1 / 10 ^ 9) ∧
          ∀ bundle ∈ (pack capacities demands).residual, b.left.fits bundle = false := by
  refine ⟨_, assigns_placesOf capacities demands, fun i capacity hcapacity => ?_⟩
  have hstart : (capacities.map (fun c => (⟨c, false⟩ : Bin ℚ)))[i]? = some ⟨capacity, false⟩ := by
    rw [List.getElem?_map, hcapacity]
    rfl
  have hend := getElem?_packInto_bins (capacities.map (⟨·, false⟩)) demands i
  rw [hstart, Option.map_some] at hend
  have hexact : ∀ name, _ = _ := fun name => Resources.get_foldl_subtract capacity
    (bundlesAt demands (placesOf (capacities.map (⟨·, false⟩)) demands) (some i)) name
  simp only [← Bin.left_foldl_take ⟨capacity, false⟩] at hexact
  refine ⟨_, hend, hexact, fun hpos name => ?_, fun bundle hleft => ?_⟩
  · have hslack := packInto_keeps
      (fun b : Bin ℚ => ∀ name, -(1 / 10 ^ 9) ≤ b.left.get name)
      (fun b d _ hkept hfits => Bin.le_left_take hkept hfits)
      (fun b hb name => ?_) hend name
    · have hsum := hexact name
      linarith
    · rw [hstart] at hb
      obtain rfl := Option.some.inj hb
      exact le_trans (by norm_num) (hpos.get name)
  · exact not_fits_of_mem_residual h hleft (List.mem_of_getElem? hend)

/-- A vector of one amount. -/
def Resources.cpu (amount : ℚ) : Resources ℚ := .ofList [("CPU", amount)]

/-- Each node takes in one bundle that only the slack has room for, and after it no other. -/
theorem pack_assigns_onceWithinSlack :
    let capacities : List (Resources ℚ) := [.cpu 2, .cpu 4]
    let demands : List (Resources ℚ) :=
      [.cpu 3, .cpu 2, .cpu (1 / 10 ^ 9), .cpu 1, .cpu (1 / 10 ^ 9), .cpu (1 / 10 ^ 10)]
    (∀ d ∈ demands, d.NonNegative) ∧
      (pack capacities demands).used = [true, true] ∧
      (pack capacities demands).residual.map (·.toList) = [[("CPU", 1 / 10 ^ 10)]] ∧
      ∃ places, Assigns capacities demands places (pack capacities demands) ∧
        ∀ i capacity, capacities[i]? = some capacity →
          ∃ b, (pack capacities demands).bins[i]? = some b ∧
            (∀ name, b.left.get name = capacity.get name -
              ((bundlesAt demands places (some i)).map (·.get name)).sum) ∧
            (capacity.NonNegative → ∀ name,
              ((bundlesAt demands places (some i)).map (·.get name)).sum ≤
                capacity.get name + 1 / 10 ^ 9) ∧
            ∀ bundle ∈ (pack capacities demands).residual, b.left.fits bundle = false := by
  intro capacities demands
  have hpos : ∀ d ∈ demands, d.NonNegative := by
    unfold Resources.NonNegative
    decide +kernel
  exact ⟨hpos, by decide +kernel, by decide +kernel, pack_assigns hpos⟩

end Exact

end ClusterScaler
