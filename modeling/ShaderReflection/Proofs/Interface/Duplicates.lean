import Mathlib.Data.List.Induction
import Mathlib.Data.List.Nodup
import ShaderReflection.Interface.Basic
/-!
The names that are reported as duplicates. A name is reported where it comes for the second time,
so the reports of a list are its repeated names, each once, in the order of their second places.
-/
namespace ShaderReflection.Interface

structure ComesAgain (names : List Text) (name : Text) (place : Nat) : Prop where
  there : names[place]? = some name
  second : (names.take place).count name = 1

/-- What is reported of a list: the names that occur at least twice, each of them once, and in the
order in which they come again. -/
structure Reports (names reported : List Text) : Prop where
  repeated : ∀ name, name ∈ reported ↔ 2 ≤ names.count name
  once : reported.Nodup
  ordered : reported.Pairwise fun a b =>
    ∀ first second, ComesAgain names a first → ComesAgain names b second → first < second

def secondPlaces (names : List Text) : List (Text × Nat) :=
  names.zipIdx.filter fun p => (names.take p.2).count p.1 == 1

section Places
variable {names : List Text} {name : Text} {place other : Nat}

theorem secondMember : (name, place) ∈ secondPlaces names ↔ ComesAgain names name place := by
  simp only [secondPlaces, List.mem_filter, List.mem_zipIdx_iff_getElem?, beq_iff_eq]
  exact ⟨fun ⟨there, second⟩ => ⟨there, second⟩, fun ⟨there, second⟩ => ⟨there, second⟩⟩

theorem secondOrdered (names : List Text) :
    (secondPlaces names).Pairwise fun p q => p.2 < q.2 := by
  have places : (names.zipIdx.map Prod.snd).Pairwise (· < ·) := by
    rw [List.zipIdx_map_snd]
    exact List.pairwise_lt_range'
  exact (List.pairwise_map.mp places).filter _

theorem countBehind (there : names[place]? = some name) (before : place < other) :
    (names.take place).count name < (names.take other).count name := by
  obtain ⟨within, rfl⟩ := List.getElem?_eq_some_iff.mp there
  have more : (names.take (place + 1)).count names[place] ≤ (names.take other).count names[place] :=
    (List.take_sublist_take_left (by omega)).count_le _
  rw [List.take_succ_eq_append_getElem within, List.count_append, List.count_singleton_self] at more
  omega

theorem placeUnique (one : ComesAgain names name place) (two : ComesAgain names name other) :
    place = other := by
  rcases Nat.lt_trichotomy place other with before | same | behind
  · have less := countBehind one.there before
    rw [one.second, two.second] at less
    omega
  · exact same
  · have less := countBehind two.there behind
    rw [one.second, two.second] at less
    omega

theorem repeatedPlace : 2 ≤ names.count name ↔ ∃ place, ComesAgain names name place := by
  constructor
  · intro twice
    induction names using List.reverseRecOn with
    | nil => simp at twice
    | append_singleton front last ih =>
      by_cases before : 2 ≤ front.count name
      · obtain ⟨place, there, second⟩ := ih before
        obtain ⟨within, -⟩ := List.getElem?_eq_some_iff.mp there
        refine ⟨place, ?_, ?_⟩
        · rw [List.getElem?_append_left within, there]
        · rw [List.take_append_of_le_length (by omega), second]
      · -- The name is at most once in front of the last place, so it is there for the second time.
        have last' : last = name := by
          by_contra other
          simp [List.count_append, other] at twice
          exact before twice
        subst last'
        rw [List.count_append, List.count_singleton_self] at twice
        refine ⟨front.length, by simp, ?_⟩
        rw [List.take_left]
        omega
  · rintro ⟨place, there, second⟩
    obtain ⟨within, -⟩ := List.getElem?_eq_some_iff.mp there
    have less := countBehind there within
    rw [second, List.take_length] at less
    exact less

end Places

structure Keeps (front seen reported : List Text) : Prop where
  known : ∀ name, name ∈ seen ↔ name ∈ front
  listed : ∀ name, name ∈ reported ↔ 2 ≤ front.count name

section Step
variable {front seen reported : List Text} {name : Text}

theorem countNext (front : List Text) (name other : Text) :
    (front ++ [name]).count other = front.count other + if name = other then 1 else 0 := by
  simp [List.count_append, List.count_singleton]

theorem Keeps.fresh (keeps : Keeps front seen reported) (none : front.count name = 0) :
    Keeps (front ++ [name]) (name :: seen) reported where
  known other := by rw [List.mem_cons, List.mem_append, List.mem_singleton, keeps.known, or_comm]
  listed other := by
    rw [keeps.listed, countNext]
    split
    · rename_i same
      subst same
      omega
    · rfl

theorem Keeps.stillKnown (keeps : Keeps front seen reported) (some' : 0 < front.count name)
    (other : Text) : other ∈ seen ↔ other ∈ front ++ [name] := by
  have before : name ∈ front := List.count_pos_iff.mp some'
  rw [List.mem_append, List.mem_singleton, keeps.known]
  exact ⟨.inl, fun either => either.elim id fun same => same ▸ before⟩

theorem Keeps.second (keeps : Keeps front seen reported) (once : front.count name = 1) :
    Keeps (front ++ [name]) seen (name :: reported) where
  known := keeps.stillKnown (by omega)
  listed other := by
    rw [List.mem_cons, keeps.listed, countNext]
    split
    · rename_i same
      subst same
      simp [once]
    · rename_i different
      simp [Ne.symm different]

theorem Keeps.again (keeps : Keeps front seen reported) (twice : 2 ≤ front.count name) :
    Keeps (front ++ [name]) seen reported where
  known := keeps.stillKnown (by omega)
  listed other := by
    rw [keeps.listed, countNext]
    split
    · rename_i same
      subst same
      omega
    · rfl

end Step

theorem repeatsFrom {front seen reported : List Text} (keeps : Keeps front seen reported)
    (rest : List Text) :
    repeats seen reported rest = ((rest.zipIdx front.length).filter fun p =>
      ((front ++ rest).take p.2).count p.1 == 1).map (·.1) := by
  induction rest generalizing front seen reported with
  | nil => rfl
  | cons name rest ih =>
    have next {seen reported : List Text} (keeps : Keeps (front ++ [name]) seen reported) :=
      ih keeps
    simp only [List.length_append, List.length_singleton, List.append_assoc,
      List.singleton_append] at next
    rw [List.zipIdx_cons, List.filter_cons, List.take_left, repeats]
    by_cases known : name ∈ seen
    · have some' : 0 < front.count name := List.count_pos_iff.mpr ((keeps.known name).mp known)
      by_cases listed : name ∈ reported
      · have twice := (keeps.listed name).mp listed
        have other : front.count name ≠ 1 := by omega
        rw [if_pos known, if_pos listed, if_neg (by simpa using other)]
        exact next (keeps.again twice)
      · have once : front.count name = 1 := by
          have few := mt (keeps.listed name).mpr listed
          omega
        rw [if_pos known, if_neg listed, if_pos (by simpa using once), List.map_cons]
        exact congrArg (name :: ·) (next (keeps.second once))
    · have none : front.count name = 0 := List.count_eq_zero.mpr (mt (keeps.known name).mpr known)
      rw [if_neg known, if_neg (by simp [none])]
      exact next (keeps.fresh none)

theorem repeatsPlaces (names : List Text) :
    repeats [] [] names = (secondPlaces names).map (·.1) := by
  have nothing : Keeps [] [] [] := ⟨fun _ => Iff.rfl, by simp⟩
  simpa [secondPlaces] using repeatsFrom nothing names

theorem repeatsReport (names : List Text) : Reports names (repeats [] [] names) := by
  have ordered : (repeats [] [] names).Pairwise fun a b =>
      ∀ first second, ComesAgain names a first → ComesAgain names b second → first < second := by
    rw [repeatsPlaces, List.pairwise_map]
    refine (secondOrdered names).imp_of_mem fun {p q} member member' less first second one two => ?_
    obtain rfl := placeUnique (secondMember.mp member) one
    obtain rfl := placeUnique (secondMember.mp member') two
    exact less
  have repeated (name : Text) : name ∈ repeats [] [] names ↔ 2 ≤ names.count name := by
    simp only [repeatsPlaces, repeatedPlace, List.mem_map, Prod.exists, exists_and_right,
      exists_eq_right, secondMember]
  refine ⟨repeated, ordered.imp_of_mem fun {a b} member _ before same => ?_, ordered⟩
  obtain ⟨place, again⟩ := repeatedPlace.mp ((repeated a).mp member)
  exact Nat.lt_irrefl place (before place place again (same ▸ again))

example : repeats [] [] (["a", "b", "b", "a", "b"].map String.toList) =
    ["b", "a"].map String.toList := by decide

section Listings
variable (i : Interface) {l : Listing} {name : Text}

theorem duplicatesListed : (l, name) ∈ i.duplicates ↔ 2 ≤ (i.names l).count name := by
  rw [← (repeatsReport (i.names l)).repeated name]
  cases l <;> simp [duplicates]

theorem duplicatesOnce : i.duplicates.Nodup := by
  refine List.nodup_flatMap.mpr ⟨fun l _ => ?_, ?_⟩
  · exact (repeatsReport (i.names l)).once.map fun a b same => (Prod.mk.inj same).2
  · have distinct : [Listing.uniforms, .inputs, .outputs].Pairwise (· ≠ ·) := by decide
    refine distinct.imp fun {l k} different d first second => ?_
    obtain ⟨_, -, rfl⟩ := List.mem_map.mp first
    obtain ⟨_, -, same⟩ := List.mem_map.mp second
    exact different (Prod.mk.inj same).1.symm

end Listings

end ShaderReflection.Interface
