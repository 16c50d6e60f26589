import Microcomputer.Proofs.Json.Records

/-!
# The members of an object

Objects whose members are in any order, with any others among them.

**Numbers.**  A literal has no zeros in front, so a number that is found below a bound is written as
its decimal numeral (`naturalBelow?_eq_some_iff`).

**Names.**  `valuesOf members name` has the values of the members whose names stand for a name,
however they are written.

**Result.**  `fields?_object_eq_some_iff`: the fields of a record are found in an object if and only
if all of its names stand for a text and none of the fields occurs twice.
-/

namespace Microcomputer
namespace Json

section Numbers

theorem isWhole_of_isDigit
    {literal : List Char}
    (h : IsNumber literal)
    (hdigits : ∀ c ∈ literal, c.isDigit = true) :
    IsWhole literal := by
  cases h with
  | minus h =>
      have hminus := hdigits '-' List.mem_cons_self
      cases hminus
  | plain h =>
      obtain ⟨hwhole, hfraction, hexponent⟩ := h
      cases hfraction with
      | point _ =>
          have hpoint := hdigits '.' (by simp)
          cases hpoint
      | absent =>
          cases hexponent with
          | absent => simpa using hwhole
          | @letter c sign digits hc _ _ =>
              have hletter := hdigits c (by simp)
              rcases hc with rfl | rfl
              · cases hletter
              · cases hletter

theorem IsWhole.toDigits_eq
    {literal : List Char}
    (h : IsWhole literal) :
    Nat.toDigits 10 (Text.numeralValue 10 literal) = literal := by
  cases h with
  | zero => rfl
  | digits h hzero => exact Text.toDigits_numeralValue h.ne_nil h.isDigit hzero

theorem naturalBelow?_eq_some_iff
    {v : Json}
    {n bound : Nat}
    (h : v.WellFormed) :
    v.naturalBelow? bound = some n ↔ n < bound ∧ v = ofNat n := by
  constructor
  · intro hfound
    unfold naturalBelow? at hfound
    split at hfound
    · next literal =>
        split at hfound
        · next hall =>
            rw [Text.numeralBelow?_eq _ _ _ (Nat.succ_pos 9)] at hfound
            split at hfound
            · next hlt =>
                cases hfound
                have hnumber : IsNumber literal.toList := h (.number literal) List.mem_cons_self
                have hwhole := isWhole_of_isDigit hnumber (List.all_eq_true.1 hall)
                refine ⟨hlt, ?_⟩
                rw [ofNat, Text.decimal, hwhole.toDigits_eq, String.ofList_toList]
            · cases hfound
        · cases hfound
    · cases hfound
  · rintro ⟨hlt, rfl⟩
    exact naturalBelow?_ofNat hlt

end Numbers

section Values

theorem Spells.wellFormed
    {text : List Char}
    {v : Json}
    (h : Spells text v.tokens) :
    v.WellFormed := by
  unfold WellFormed
  generalize v.tokens = tokens at h ⊢
  induction h with
  | nil => simp
  | blank _ _ ih => exact ih
  | token _ hformed _ _ ih => exact List.forall_mem_cons.2 ⟨hformed, ih⟩

theorem tokens_subset_memberTokens
    {members : List (String × Json)}
    {m : String × Json}
    (hm : m ∈ members) :
    m.2.tokens ⊆ memberTokens members := by
  induction members with
  | nil => cases hm
  | cons first others ih =>
      intro t ht
      simp only [memberTokens, List.mem_cons, List.mem_append]
      rcases List.mem_cons.1 hm with rfl | hm
      · exact Or.inr (Or.inr (Or.inr (Or.inl ht)))
      · exact Or.inr (Or.inr (Or.inr (Or.inr (ih hm ht))))

theorem WellFormed.member
    {members : List (String × Json)}
    {m : String × Json}
    (h : (Json.object members).WellFormed)
    (hm : m ∈ members) :
    m.2.WellFormed := by
  intro t ht
  have hmember := tokens_subset_memberTokens hm ht
  cases members with
  | nil => cases hm
  | cons first others =>
      simp only [memberTokens, List.mem_cons, List.mem_append] at hmember
      simp only [WellFormed, tokens, List.mem_cons, List.mem_append] at h
      rcases hmember with rfl | hname | hcolon | hfirst | hothers
      · trivial
      · exact h t (Or.inr (Or.inl hname))
      · exact h t (Or.inr (Or.inr (Or.inl hcolon)))
      · exact h t (Or.inr (Or.inr (Or.inr (Or.inl (Or.inl hfirst)))))
      · exact h t (Or.inr (Or.inr (Or.inr (Or.inl (Or.inr hothers)))))

end Values

section Names

/-- The values of the members whose names stand for a name, in their order. -/
def valuesOf
    (members : List (String × Json))
    (name : String) :
    List Json :=
  members.filterMap fun m => if unescape? m.1 = some name then some m.2 else none

theorem mem_valuesOf_iff
    {members : List (String × Json)}
    {name : String}
    {v : Json} :
    v ∈ valuesOf members name ↔
      ∃ written, (written, v) ∈ members ∧ unescape? written = some name := by
  simp [valuesOf, and_comm]

variable {members named : List (String × Json)}

/-- The members under the names that their names stand for. -/
def Named (members named : List (String × Json)) : Prop :=
  List.Forall₂ (fun m n => (unescape? m.1).map (fun name => (name, m.2)) = some n) members named

theorem exists_named_iff :
    (∃ named, Named members named) ↔ ∀ m ∈ members, (unescape? m.1).isSome = true := by
  constructor
  · rintro ⟨named, h⟩
    induction h with
    | nil => simp
    | @cons m n members named hname _ ih =>
        refine List.forall_mem_cons.2 ⟨?_, ih⟩
        obtain ⟨meant, hmeant, -⟩ := Option.map_eq_some_iff.1 hname
        rw [hmeant]
        rfl
  · intro h
    induction members with
    | nil => exact ⟨[], .nil⟩
    | cons m others ih =>
        obtain ⟨hm, hothers⟩ := List.forall_mem_cons.1 h
        obtain ⟨meant, hmeant⟩ := Option.isSome_iff_exists.1 hm
        obtain ⟨named, hnamed⟩ := ih hothers
        exact ⟨(meant, m.2) :: named, .cons (by rw [hmeant]; rfl) hnamed⟩

theorem Named.map_filter
    (h : Named members named)
    (name : String) :
    (named.filter fun n => n.1 == name).map Prod.snd = valuesOf members name := by
  induction h with
  | nil => rfl
  | @cons m n members named hname _ ih =>
      obtain ⟨meant, hmeant, rfl⟩ := Option.map_eq_some_iff.1 hname
      by_cases heq : meant = name
      · simpa [valuesOf, hmeant, heq] using ih
      · simpa [valuesOf, hmeant, heq] using ih

theorem Named.uniqueMember?_eq_some_iff
    (h : Named members named)
    {name : String}
    {field : Option Json} :
    uniqueMember? named name = some field ↔ valuesOf members name = field.toList := by
  rw [← h.map_filter, uniqueMember?]
  generalize named.filter (fun n => n.1 == name) = found
  rcases found with _ | ⟨m, _ | ⟨m', others⟩⟩
  · cases field <;> simp
  · cases field <;> simp
  · cases field <;> simp

/-- **Fields.** They are found exactly if all names stand for a text and no field occurs twice. -/
theorem fields?_object_eq_some_iff
    {names : List String}
    {fields : List (Option Json)} :
    (Json.object members).fields? names = some fields ↔
      (∀ m ∈ members, (unescape? m.1).isSome = true) ∧
        names.map (valuesOf members) = fields.map Option.toList := by
  rw [← exists_named_iff, fields?]
  cases hread : members.mapM fun m => (unescape? m.1).map fun name => (name, m.2) with
  | none =>
      have hnone : ¬ ∃ named, Named members named := by
        rintro ⟨named, hnamed⟩
        rw [Text.mapM_eq_some_iff.2 hnamed] at hread
        cases hread
      simp [hnone]
  | some named =>
      have hnamed : Named members named := Text.mapM_eq_some_iff.1 hread
      have hfields : names.mapM (uniqueMember? named) = some fields ↔
          names.map (valuesOf members) = fields.map Option.toList := by
        simp only [Text.mapM_eq_some_iff, hnamed.uniqueMember?_eq_some_iff,
          ← List.forall₂_eq_eq_eq, List.forall₂_map_left_iff, List.forall₂_map_right_iff]
      rw [← hfields]
      exact ⟨fun hfound => ⟨⟨named, hnamed⟩, hfound⟩, And.right⟩

end Names

end Json
end Microcomputer
