import Microcomputer.Proofs.Json.Writing
import Microcomputer.Proofs.Text.Numeral
import Microcomputer.Proofs.Text.Pieces

/-!
# Numbers, names and records

The values that records are made of, written and looked at again.

**Numbers.**  A natural number is written as a literal and found again below every bound that is
above it (`naturalBelow?_ofNat`).

**Names.**  `IsPlain written`: the string needs no escape.  It stands for itself
(`unescape?_of_isPlain`).

**Records.**  `AreFieldNames names`: the names are plain, and no two are the same.  An object with
these members is well formed (`IsRecord.wellFormed`) and has all of its fields
(`IsRecord.fields?_eq`).
-/

namespace Microcomputer
namespace Json

section Numbers

theorem head?_toDigits_ne
    {n : Nat}
    (h : 0 < n) :
    (Nat.toDigits 10 n).head? ≠ some '0' := by
  induction n using Nat.strongRecOn with
  | ind n ih =>
      rw [Nat.toDigits_eq_if (by decide)]
      split
      · next hlt =>
          have hall : ∀ k : Fin 10, 0 < k.val → Nat.digitChar k ≠ '0' := by decide
          simpa using hall ⟨n, hlt⟩ h
      · next hge =>
          have hne : Nat.toDigits 10 (n / 10) ≠ [] := Nat.toDigits_ne_nil
          rw [List.head?_append, List.head?_eq_some_head hne, Option.some_or,
            ← List.head?_eq_some_head hne]
          exact ih (n / 10) (by omega) (by omega)

theorem isWhole_toDigits (n : Nat) : IsWhole (Nat.toDigits 10 n) := by
  rcases Nat.eq_zero_or_pos n with rfl | hpos
  · exact .zero
  · refine .digits ⟨Nat.toDigits_ne_nil, fun c hc => ?_⟩ (head?_toDigits_ne hpos)
    exact Nat.isDigit_of_mem_toDigits (by decide) (by decide) hc

theorem isNumber_decimal (n : Nat) : IsNumber (Text.decimal n).toList := by
  simpa [Text.decimal] using
    IsNumber.plain (.parts (isWhole_toDigits n) .absent .absent)

theorem naturalBelow?_ofNat
    {n bound : Nat}
    (h : n < bound) :
    (ofNat n).naturalBelow? bound = some n := by
  have hdigits : (Nat.toDigits 10 n).all Char.isDigit = true :=
    List.all_eq_true.2 fun _ hc => Nat.isDigit_of_mem_toDigits (by decide) (by decide) hc
  simp only [ofNat, naturalBelow?, Text.decimal, String.toList_ofList, hdigits, if_true]
  rw [Text.numeralBelow?_eq bound 10 _ (by decide),
    Text.numeralValue_toDigits (by decide) (by decide), if_pos h]

end Numbers

section Names

/-- No character of the string needs an escape. -/
def IsPlain (written : String) : Prop :=
  ∀ c ∈ written.toList, c ≠ '"' ∧ c ≠ '\\' ∧ 0x20 ≤ c.toNat

instance (written : String) : Decidable (IsPlain written) :=
  List.decidableBAll _ written.toList

theorem isWritten_of_isPlain
    {written : String}
    (h : IsPlain written) :
    IsWritten written.toList := by
  unfold IsPlain at h
  generalize written.toList = characters at h ⊢
  induction characters with
  | nil => exact .nil
  | cons c rest ih =>
      obtain ⟨hquote, hescape, hcontrol⟩ := h c List.mem_cons_self
      exact .plain hquote hescape hcontrol (ih fun d hd => h d (List.mem_cons_of_mem c hd))

theorem unescapeOnto_append
    {written : List Char}
    (h : '\\' ∉ written)
    (done : List Char) :
    unescapeOnto done written = some (done.reverse ++ written) := by
  induction written generalizing done with
  | nil => simp [unescapeOnto]
  | cons c rest ih =>
      simp only [List.mem_cons, not_or] at h
      rw [unescapeOnto, ih h.2]
      · simp
      · exact fun _ _ _ _ _ hc _ => h.1 hc.symm
      · exact fun _ _ hc _ => h.1 hc.symm

/-- A plain string stands for itself. -/
theorem unescape?_of_isPlain
    {written : String}
    (h : IsPlain written) :
    unescape? written = some written := by
  have hescape : '\\' ∉ written.toList := fun hmem => (h _ hmem).2.1 rfl
  simp [unescape?, unescapeOnto_append hescape]

end Names

section Records

/-- Names that the fields of a record may have. -/
def AreFieldNames (names : List String) : Prop :=
  names.Nodup ∧ ∀ name ∈ names, IsPlain name

instance (names : List String) : Decidable (AreFieldNames names) :=
  @instDecidableAnd _ _ _ (List.decidableBAll _ names)

theorem uniqueMember?_of_mem
    {members : List (String × Json)}
    {m : String × Json}
    (hnodup : (members.map Prod.fst).Nodup)
    (hm : m ∈ members) :
    uniqueMember? members m.1 = some (some m.2) := by
  have hfilter : members.filter (fun other => other.1 == m.1) = [m] := by
    induction members with
    | nil => cases hm
    | cons first others ih =>
        rw [List.map_cons, List.nodup_cons] at hnodup
        rcases List.mem_cons.1 hm with rfl | hm
        · have hnone : others.filter (fun other => other.1 == m.1) = [] := by
            refine List.filter_eq_nil_iff.2 fun other hother heq => ?_
            exact hnodup.1 (eq_of_beq heq ▸ List.mem_map_of_mem hother)
          simp [hnone]
        · have hne : first.1 ≠ m.1 := fun heq => hnodup.1 (heq ▸ List.mem_map_of_mem hm)
          simp [hne, ih hnodup.2 hm]
  rw [uniqueMember?, hfilter]

end Records

section WellFormed

theorem wellFormed_null : Json.null.WellFormed := by
  simp [WellFormed, tokens, Token.WellFormed]

theorem wellFormed_ofNat (n : Nat) : (ofNat n).WellFormed := by
  simpa [WellFormed, ofNat, tokens, Token.WellFormed] using isNumber_decimal n

theorem wellFormed_string
    {written : String}
    (h : IsPlain written) :
    (Json.string written).WellFormed := by
  simpa [WellFormed, tokens, Token.WellFormed] using isWritten_of_isPlain h

theorem wellFormed_elementTokens
    {elements : List Json}
    (h : ∀ v ∈ elements, v.WellFormed) :
    ∀ t ∈ elementTokens elements, t.WellFormed := by
  induction elements with
  | nil => simp [elementTokens]
  | cons v rest ih =>
      intro t ht
      simp only [elementTokens, List.mem_cons, List.mem_append] at ht
      rcases ht with rfl | ht | ht
      · trivial
      · exact h v List.mem_cons_self t ht
      · exact ih (fun w hw => h w (List.mem_cons_of_mem v hw)) t ht

theorem wellFormed_array
    {elements : List Json}
    (h : ∀ v ∈ elements, v.WellFormed) :
    (Json.array elements).WellFormed := by
  cases elements with
  | nil => simp [WellFormed, tokens, Token.WellFormed]
  | cons v rest =>
      have hall := wellFormed_elementTokens h
      simp only [WellFormed, tokens, elementTokens, List.mem_cons, List.mem_append] at hall ⊢
      rintro t (rfl | ht | rfl | ht)
      · trivial
      · exact hall t (Or.inr ht)
      · trivial
      · cases ht

theorem wellFormed_memberTokens
    {members : List (String × Json)}
    (h : ∀ m ∈ members, IsPlain m.1 ∧ m.2.WellFormed) :
    ∀ t ∈ memberTokens members, t.WellFormed := by
  induction members with
  | nil => simp [memberTokens]
  | cons m rest ih =>
      intro t ht
      obtain ⟨hname, hvalue⟩ := h m List.mem_cons_self
      simp only [memberTokens, List.mem_cons, List.mem_append] at ht
      rcases ht with rfl | rfl | rfl | ht | ht
      · trivial
      · exact isWritten_of_isPlain hname
      · trivial
      · exact hvalue t ht
      · exact ih (fun other hother => h other (List.mem_cons_of_mem m hother)) t ht

theorem wellFormed_object
    {members : List (String × Json)}
    (h : ∀ m ∈ members, IsPlain m.1 ∧ m.2.WellFormed) :
    (Json.object members).WellFormed := by
  cases members with
  | nil => simp [WellFormed, tokens, Token.WellFormed]
  | cons m rest =>
      have hall := wellFormed_memberTokens h
      simp only [WellFormed, tokens, memberTokens, List.mem_cons, List.mem_append] at hall ⊢
      rintro t (rfl | ht | ht | ht | rfl | ht)
      · trivial
      · exact hall t (Or.inr (Or.inl ht))
      · exact hall t (Or.inr (Or.inr (Or.inl ht)))
      · exact hall t (Or.inr (Or.inr (Or.inr ht)))
      · trivial
      · cases ht

end WellFormed

section Forms

/-- A record with these names, which has these values as its fields. -/
structure IsRecord
    (names : List String)
    (values : List Json)
    (record : Json) :
    Prop where
  areFieldNames : AreFieldNames names
  length_eq : names.length = values.length
  wellFormed_values : ∀ v ∈ values, v.WellFormed
  eq_object : record = .object (names.zip values)

variable {names : List String} {values : List Json} {record : Json}

theorem IsRecord.wellFormed (h : IsRecord names values record) : record.WellFormed := by
  rw [h.eq_object]
  refine wellFormed_object fun m hm => ?_
  obtain ⟨hname, hvalue⟩ := List.of_mem_zip hm
  exact ⟨h.areFieldNames.2 m.1 hname, h.wellFormed_values m.2 hvalue⟩

/-- A record has all of its fields. -/
theorem IsRecord.fields?_eq (h : IsRecord names values record) :
    record.fields? names = some (values.map some) := by
  obtain ⟨hnames, hlength, -, rfl⟩ := h
  have hkeys : (names.zip values).map Prod.fst = names :=
    List.map_fst_zip (Nat.le_of_eq hlength)
  have hvalues : (names.zip values).map Prod.snd = values :=
    List.map_snd_zip (Nat.le_of_eq hlength.symm)
  have hnamed : (names.zip values).mapM
      (fun m => (unescape? m.1).map fun name => (name, m.2)) = some (names.zip values) := by
    rw [Text.mapM_eq_some_map (g := id), List.map_id]
    intro m hm
    rw [unescape?_of_isPlain (hnames.2 m.1 (List.of_mem_zip hm).1)]
    rfl
  have hmembers : ((names.zip values).map Prod.fst).mapM (uniqueMember? (names.zip values)) =
      some (((names.zip values).map Prod.snd).map some) := by
    rw [List.mapM_map, List.map_map]
    exact Text.mapM_eq_some_map fun m hm => uniqueMember?_of_mem (hkeys.symm ▸ hnames.1) hm
  rw [hkeys, hvalues] at hmembers
  simpa only [fields?, hnamed] using hmembers

end Forms

end Json
end Microcomputer
