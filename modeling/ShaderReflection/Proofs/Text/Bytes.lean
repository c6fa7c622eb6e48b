import ShaderReflection.Text.Utf8
/-!
The bytes of a text and the places of its characters among them. No byte inside a character is the
first one of another, so the bytes of a word are found in a text only where its characters stand.
-/
namespace ShaderReflection.Text

def OnBoundary (t : Text) (n : Nat) : Prop :=
  ∃ before after, t = before ++ after ∧ (toUtf8 before).length = n

def BeginsAt (c : Char) (t : Text) (n : Nat) : Prop :=
  ∃ before after, t = before ++ c :: after ∧ (toUtf8 before).length = n

def OccursAt (word t : Text) (n : Nat) : Prop := toUtf8 word <+: (toUtf8 t).drop n

instance (word t : Text) (n : Nat) : Decidable (OccursAt word t n) :=
  inferInstanceAs (Decidable (_ <+: _))

theorem bytesJoined (a b : Text) : toUtf8 (a ++ b) = toUtf8 a ++ toUtf8 b := List.flatMap_append

theorem bytesNext (c : Char) (r : Text) : toUtf8 (c :: r) = String.utf8EncodeChar c ++ toUtf8 r :=
  List.flatMap_cons

theorem joinedCount (a b : Text) :
    (toUtf8 (a ++ b)).length = (toUtf8 a).length + (toUtf8 b).length := by
  rw [bytesJoined, List.length_append]

theorem countNext (c : Char) (r : Text) :
    (toUtf8 (c :: r)).length = c.utf8Size + (toUtf8 r).length := by
  rw [bytesNext, List.length_append, String.length_utf8EncodeChar]

theorem concatCount (a : Text) (c : Char) :
    (toUtf8 (a ++ [c])).length = (toUtf8 a).length + c.utf8Size := by
  rw [joinedCount, countNext]
  rfl

theorem bytesCounted (t : Text) : (toUtf8 t).length = utf8Length t := by
  induction t with
  | nil => rfl
  | cons c r ih => rw [countNext, ih, utf8Length]

theorem prefixOfBytes {a t : Text} (begins : toUtf8 a <+: toUtf8 t) : a <+: t := by
  obtain ⟨rest, whole⟩ := begins
  refine List.isPrefix_of_utf8Encode_append_eq_utf8Encode rest.toByteArray ?_
  rw [List.utf8Encode, List.utf8Encode, ← List.toByteArray_append]
  exact congrArg List.toByteArray whole

theorem placeOnce {a b c d : Text} (same : a ++ b = c ++ d)
    (count : (toUtf8 a).length = (toUtf8 c).length) : a = c ∧ b = d := by
  have bytes : toUtf8 a ++ toUtf8 b = toUtf8 c ++ toUtf8 d := by
    rw [← bytesJoined, same, bytesJoined]
  have front : toUtf8 a = toUtf8 c := (List.append_inj bytes count).1
  have inside : a <+: c := prefixOfBytes (front ▸ List.prefix_rfl)
  have around : c <+: a := prefixOfBytes (front ▸ List.prefix_rfl)
  obtain rfl := inside.eq_of_length_le around.length_le
  exact ⟨rfl, List.append_cancel_left same⟩

theorem occursHere {word t : Text} : OccursAt word t 0 ↔ word <+: t := by
  refine ⟨prefixOfBytes, ?_⟩
  rintro ⟨rest, rfl⟩
  rw [OccursAt, bytesJoined]
  exact List.prefix_append _ _

theorem occursBehind {word front t : Text} {n : Nat} :
    OccursAt word (front ++ t) ((toUtf8 front).length + n) ↔ OccursAt word t n := by
  rw [OccursAt, bytesJoined, List.drop_length_add_append, OccursAt]

theorem occursPast {word r : Text} {c : Char} {n : Nat} :
    OccursAt word (c :: r) (c.utf8Size + n) ↔ OccursAt word r n := by
  have size : (toUtf8 [c]).length = c.utf8Size := countNext c []
  rw [← size]
  exact @occursBehind word [c] r n

section Word
variable {word : Text} (some' : word ≠ [])
include some'

theorem firstByte : ∃ b rest, toUtf8 word = b :: rest ∧ b.IsUTF8FirstByte := by
  cases word with
  | nil => exact absurd rfl some'
  | cons c r =>
    have begins := @UInt8.isUTF8FirstByte_getElem_zero_utf8EncodeChar c
    cases bytes : String.utf8EncodeChar c with
    | nil => exact absurd bytes String.utf8EncodeChar_ne_nil
    | cons b rest =>
      simp only [bytes, List.getElem_cons_zero] at begins
      exact ⟨b, rest ++ toUtf8 r, by rw [bytesNext, bytes, List.cons_append], begins⟩

theorem insideAbsent {c : Char} {r : Text} {n : Nat} (occurs : OccursAt word (c :: r) n)
    (within : n < c.utf8Size) : n = 0 := by
  obtain ⟨b, rest, bytes, begins⟩ := firstByte some'
  have here : n < (String.utf8EncodeChar c).length := by rwa [String.length_utf8EncodeChar]
  obtain ⟨behind, shape⟩ := occurs
  rw [bytes, bytesNext, List.drop_append_of_le_length (Nat.le_of_lt here),
    List.drop_eq_getElem_cons here] at shape
  obtain ⟨same, -⟩ := List.cons.inj shape
  rw [same] at begins
  exact UInt8.isUTF8FirstByte_getElem_utf8EncodeChar.mp begins

theorem occursBoundary {t : Text} {n : Nat} (occurs : OccursAt word t n) : OnBoundary t n := by
  induction t generalizing n with
  | nil =>
    obtain ⟨b, rest, bytes, -⟩ := firstByte some'
    have none' : toUtf8 word = [] := by simpa [OccursAt, toUtf8] using occurs
    rw [bytes] at none'
    cases none'
  | cons c r ih =>
    by_cases within : n < c.utf8Size
    · exact ⟨[], c :: r, rfl, (insideAbsent some' occurs within).symm⟩
    · obtain ⟨k, rfl⟩ := Nat.exists_eq_add_of_le (Nat.le_of_not_lt within)
      obtain ⟨before, after, rfl, count⟩ := ih (occursPast.mp occurs)
      exact ⟨c :: before, after, rfl, by rw [countNext, count]⟩

theorem occursExactly {t : Text} {n : Nat} : OccursAt word t n ↔
    ∃ before after, t = before ++ (word ++ after) ∧ (toUtf8 before).length = n := by
  constructor
  · intro occurs
    obtain ⟨before, behind, rfl, rfl⟩ := occursBoundary some' occurs
    obtain ⟨after, rfl⟩ := occursHere.mp (occursBehind.mp occurs)
    exact ⟨before, after, rfl, rfl⟩
  · rintro ⟨before, after, rfl, rfl⟩
    exact occursBehind.mpr (occursHere.mpr (List.prefix_append word after))

theorem occursWithin {t : Text} {n : Nat} (occurs : OccursAt word t n) :
    n + (toUtf8 word).length ≤ (toUtf8 t).length := by
  obtain ⟨before, after, rfl, rfl⟩ := (occursExactly some').mp occurs
  rw [joinedCount, joinedCount]
  omega

theorem occursLater {front r : Text} {c : Char} {n : Nat} (other : ¬word <+: c :: r)
    (behind : (toUtf8 front).length ≤ n) (occurs : OccursAt word (front ++ c :: r) n) :
    (toUtf8 (front ++ [c])).length ≤ n := by
  obtain ⟨k, rfl⟩ := Nat.exists_eq_add_of_le behind
  rw [concatCount]
  refine Nat.add_le_add_left (Nat.le_of_not_lt fun within => ?_) _
  have inside := occursBehind.mp occurs
  obtain rfl := insideAbsent some' inside within
  exact other (occursHere.mp inside)

end Word
end ShaderReflection.Text
