import CrystalModel.Proofs.Binary.Codec
import CrystalModel.Proofs.Energy.Table
import CrystalModel.Proofs.Numeric.Ascending
import CrystalModel.Proofs.Reference.Validation
import CrystalModel.Proofs.Rule.Enumeration
import Mathlib.Algebra.Order.Ring.Nat

/-! # Occupations of a cluster

An occupation takes an active particle from the set of every partner site. Its code holds a byte for
each of the first eight partners, and below the particle limit an index is its byte. So occupations
of up to eight partners are known by their codes; an index as it is authored is known by its byte
only. -/
namespace CrystalModel

theorem byte_inj {a b : Nat} : UInt8.ofNat a = UInt8.ofNat b ↔ a % 256 = b % 256 := by
  rw [← UInt8.toNat_inj, UInt8.toNat_ofNat', UInt8.toNat_ofNat']

theorem map_byte_inj {a b : List Nat} :
    a.map UInt8.ofNat = b.map UInt8.ofNat ↔ a.map (· % 256) = b.map (· % 256) := by
  induction a generalizing b with
  | nil => cases b <;> simp
  | cons x a ih =>
    cases b with
    | nil => simp
    | cons y b => simp only [List.map_cons, List.cons.injEq, byte_inj, ih]

theorem map_mod_of_small {a : List Nat} (small : ∀ p ∈ a, p < 256) : a.map (· % 256) = a := by
  conv_rhs => rw [← List.map_id a]
  exact List.map_congr_left fun p hp => Nat.mod_eq_of_lt (small p hp)

theorem stateCode_inj {a b : PathState} (same : a.length = b.length) :
    stateCode a = stateCode b ↔ a.take pathLimit = b.take pathLimit := by
  refine ⟨fun h => ?_, fun h => by rw [stateCode, stateCode, h]⟩
  have fits (state : PathState) : Binary.value (state.take pathLimit) < 2 ^ 64 :=
    (Binary.value_lt _).trans_le
      (Nat.pow_le_pow_right (by decide) (List.length_take_le pathLimit state))
  have word : Binary.value (a.take pathLimit) = Binary.value (b.take pathLimit) := by
    have bits : Binary.value (a.take pathLimit) % 2 ^ 64 =
        Binary.value (b.take pathLimit) % 2 ^ 64 := by
      simpa [stateCode] using congrArg (fun code => code.toUInt64.toNat) h
    rwa [Nat.mod_eq_of_lt (fits a), Nat.mod_eq_of_lt (fits b)] at bits
  rw [← Binary.word_value (a.take pathLimit), word, List.length_take, same, ← List.length_take,
    Binary.word_value]

namespace ReferenceData

def Allows (r : ReferenceData) (site k : Nat) : Prop :=
  ∃ home set particle, r.sites[site]? = some home ∧ r.particleSets[home.occupation]? = some set ∧
    k ∈ set.particles ∧ r.particles[k]? = some particle ∧ particle.isActive = true

variable {r : ReferenceData} {site k : Nat}

theorem mem_occupantsOf : k ∈ r.occupantsOf site ↔ r.Allows site k := by
  unfold occupantsOf Allows
  cases r.sites[site]? with
  | none => simp
  | some home =>
    cases found : r.particleSets[home.occupation]? with
    | none => simp [found]
    | some set =>
      cases known : r.particles[k]? with
      | none => simp [found, known]
      | some particle => simp [found, known]

theorem occupantsOf_ascending (r : ReferenceData) (site : Nat) :
    (r.occupantsOf site).Pairwise (· < ·) := by
  unfold occupantsOf
  split
  · exact .nil
  · exact Numeric.ascending_pairwise _

theorem Fit.lt_of_allows (fit : r.Fit) (h : r.Allows site k) : k < 256 := by
  obtain ⟨_, _, _, _, _, _, known, _⟩ := h
  exact fit.index_lt (List.getElem?_eq_some_iff.mp known).1

/-- The occupation takes a particle of every partner. -/
def Fills (r : ReferenceData) (partners occupation : List Nat) : Prop :=
  List.Forall₂ r.Allows partners occupation

variable {partners o : List Nat}

theorem Fit.small_of_fills (fit : r.Fit) (h : r.Fills partners o) : ∀ p ∈ o, p < 256 := by
  intro p hp
  obtain ⟨_, _, allowed⟩ := aligned_mem_right h hp
  exact fit.lt_of_allows allowed

end ReferenceData

def occupationCode (occupation : List Nat) : Int64 := stateCode (occupation.map UInt8.ofNat)

theorem occupationCode_inj {a b : List Nat} (same : a.length = b.length) :
    occupationCode a = occupationCode b ↔
      (a.take pathLimit).map (· % 256) = (b.take pathLimit).map (· % 256) := by
  rw [occupationCode, occupationCode, stateCode_inj (by simpa using same), ← List.map_take,
    ← List.map_take, map_byte_inj]

theorem eq_of_occupationCode {a b : List Nat} (same : a.length = b.length)
    (short : a.length ≤ pathLimit) (smallA : ∀ p ∈ a, p < 256) (smallB : ∀ p ∈ b, p < 256)
    (h : occupationCode a = occupationCode b) : a = b := by
  rw [occupationCode_inj same, List.take_of_length_le short,
    List.take_of_length_le (same ▸ short), map_mod_of_small smallA, map_mod_of_small smallB] at h
  exact h

namespace GroupLayout

variable {r : ReferenceData} {partners : List Nat} {code : Int64}

theorem mem_codesOf : code ∈ codesOf (partners.map r.occupantsOf) ↔
    ∃ o, r.Fills partners o ∧ occupationCode o = code := by
  have chosen (state : PathState) :
      state ∈ choices ((partners.map r.occupantsOf).map fun ps => ps.map UInt8.ofNat) ↔
        ∃ o, r.Fills partners o ∧ o.map UInt8.ofNat = state := by
    rw [mem_choices, List.map_map, List.forall₂_map_right_iff]
    simp only [Function.comp_apply, List.mem_map, ReferenceData.mem_occupantsOf]
    refine ⟨fun h => ?_, ?_⟩
    · induction h with
      | nil => exact ⟨[], .nil, rfl⟩
      | cons first _ ih =>
        obtain ⟨k, allowed, rfl⟩ := first
        obtain ⟨o, filled, rfl⟩ := ih
        exact ⟨k :: o, .cons allowed filled, rfl⟩
    · rintro ⟨o, filled, rfl⟩
      exact List.forall₂_map_left_iff.mpr (filled.flip.imp fun k _ allowed => ⟨k, allowed, rfl⟩)
  rw [codesOf, Numeric.mem_ascending, List.mem_map]
  simp only [chosen]
  constructor
  · rintro ⟨_, ⟨o, filled, rfl⟩, same⟩
    exact ⟨o, filled, same⟩
  · rintro ⟨o, filled, same⟩
    exact ⟨_, ⟨o, filled, rfl⟩, same⟩

/-! ## Orders -/

/-- The order moves the particles of one occupation to their places in another. -/
def Carries (order occupation image : List Nat) : Prop :=
  List.Forall₂ (fun place particle => image[place]? = some particle) order occupation

instance (order occupation image : List Nat) : Decidable (Carries order occupation image) :=
  inferInstanceAs (Decidable (List.Forall₂ _ order occupation))

def moved (state : PathState) (move : Nat × Nat) : PathState :=
  state.set move.1 (UInt8.ofNat move.2)

theorem permuted_eq_foldl (order occupation : List Nat) : permuted order occupation =
    (order.zip occupation).foldl moved (List.replicate occupation.length voidByte) := rfl

@[simp] theorem foldl_moved_length (moves : List (Nat × Nat)) (state : PathState) :
    (moves.foldl moved state).length = state.length := by
  induction moves generalizing state with
  | nil => rfl
  | cons move rest ih => rw [List.foldl_cons, ih, moved, List.length_set]

theorem getElem?_foldl_moved_of_notMem {moves : List (Nat × Nat)} {place : Nat}
    (untouched : place ∉ moves.map Prod.fst) (state : PathState) :
    (moves.foldl moved state)[place]? = state[place]? := by
  induction moves generalizing state with
  | nil => rfl
  | cons move rest ih =>
    rw [List.map_cons, List.mem_cons, not_or] at untouched
    rw [List.foldl_cons, ih untouched.2, moved, List.getElem?_set_ne (Ne.symm untouched.1)]

theorem getElem?_foldl_moved {moves : List (Nat × Nat)} (nodup : (moves.map Prod.fst).Nodup)
    {place particle : Nat} (h : (place, particle) ∈ moves) {state : PathState}
    (inside : place < state.length) :
    (moves.foldl moved state)[place]? = some (UInt8.ofNat particle) := by
  induction moves generalizing state with
  | nil => cases h
  | cons move rest ih =>
    obtain ⟨untouched, nodup⟩ := List.nodup_cons.mp nodup
    rw [List.foldl_cons]
    rcases List.mem_cons.mp h with rfl | later
    · rw [getElem?_foldl_moved_of_notMem untouched, moved, List.getElem?_set_self inside]
    · exact ih nodup later (by rwa [moved, List.length_set])

variable {order occupation image : List Nat}

@[simp] theorem permuted_length : (permuted order occupation).length = occupation.length := by
  rw [permuted_eq_foldl, foldl_moved_length, List.length_replicate]

theorem permuted_places (perm : order.Perm (List.range occupation.length)) :
    List.Forall₂ (fun place particle =>
      (permuted order occupation)[place]? = some (UInt8.ofNat particle)) order occupation := by
  have same : order.length = occupation.length := by simpa using perm.length_eq
  refine List.forall₂_iff_zip.mpr ⟨same, fun {place particle} h => ?_⟩
  have inside : place < occupation.length :=
    List.mem_range.mp (perm.mem_iff.mp (List.of_mem_zip h).1)
  rw [permuted_eq_foldl]
  refine getElem?_foldl_moved ?_ h (by rwa [List.length_replicate])
  rw [List.map_fst_zip same.le]
  exact perm.nodup_iff.mpr List.nodup_range

theorem eq_of_places {α β : Type} {xs ys : List α} {particles : List β} {value : β → α}
    (perm : order.Perm (List.range xs.length)) (same : xs.length = ys.length)
    (left : List.Forall₂ (fun place p => xs[place]? = some (value p)) order particles)
    (right : List.Forall₂ (fun place p => ys[place]? = some (value p)) order particles) :
    xs = ys := by
  refine List.ext_getElem? fun place => ?_
  by_cases inside : place < xs.length
  · obtain ⟨k, hk⟩ := List.mem_iff_getElem?.mp (perm.mem_iff.mpr (List.mem_range.mpr inside))
    obtain ⟨p, hp, here⟩ := aligned_left left hk
    obtain ⟨p', hp', there⟩ := aligned_left right hk
    obtain rfl := Option.some.inj (hp.symm.trans hp')
    rw [here, there]
  · rw [List.getElem?_eq_none (by omega), List.getElem?_eq_none (by omega)]

theorem permuted_eq_iff (perm : order.Perm (List.range occupation.length))
    (same : image.length = occupation.length) (small : ∀ p ∈ occupation, p < 256)
    (smallImage : ∀ p ∈ image, p < 256) :
    permuted order occupation = image.map UInt8.ofNat ↔ Carries order occupation image := by
  have places := permuted_places perm
  constructor
  · intro h
    rw [h] at places
    refine List.forall₂_iff_zip.mpr ⟨places.length_eq, fun {place particle} listed => ?_⟩
    have here := (List.forall₂_iff_zip.mp places).2 listed
    rw [List.getElem?_map, Option.map_eq_some_iff] at here
    obtain ⟨k, hk, alike⟩ := here
    rw [byte_inj, Nat.mod_eq_of_lt (smallImage k (List.mem_of_getElem? hk)),
      Nat.mod_eq_of_lt (small particle (List.of_mem_zip listed).2)] at alike
    rw [hk, alike]
  · intro carried
    refine eq_of_places (permuted_length ▸ perm) ?_ places (carried.imp fun place p here => ?_)
    · rw [permuted_length, List.length_map, same]
    · rw [List.getElem?_map, here, Option.map_some]

/-- Up to eight particles are carried exactly where the codes agree. -/
theorem permuted_code_iff (perm : order.Perm (List.range occupation.length))
    (same : image.length = occupation.length) (short : occupation.length ≤ pathLimit)
    (small : ∀ p ∈ occupation, p < 256) (smallImage : ∀ p ∈ image, p < 256) :
    stateCode (permuted order occupation) = occupationCode image ↔
      Carries order occupation image := by
  have lengths : (permuted order occupation).length = (image.map UInt8.ofNat).length := by
    rw [permuted_length, List.length_map, same]
  have whole : (permuted order occupation).length ≤ pathLimit := by rwa [permuted_length]
  rw [occupationCode, stateCode_inj lengths, List.take_of_length_le whole,
    List.take_of_length_le (lengths ▸ whole), permuted_eq_iff perm same small smallImage]

theorem permuted_range : permuted (List.range occupation.length) occupation =
    occupation.map UInt8.ofNat := by
  have perm : (List.range occupation.length).Perm
      (List.range (permuted (List.range occupation.length) occupation).length) := by
    rw [permuted_length]
  refine eq_of_places perm ?_ (permuted_places (.refl _)) ?_
  · rw [permuted_length, List.length_map]
  · refine List.forall₂_iff_get.mpr ⟨List.length_range, fun k _ inside => ?_⟩
    simp [List.getElem?_eq_getElem inside]

end GroupLayout

end CrystalModel
