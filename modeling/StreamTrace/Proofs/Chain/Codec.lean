import StreamTrace.Chain.Places
import StreamTrace.Proofs.Json.Amendments

/-!
# Chains read back

A chain is the same after it was written and read, also when the written form was amended: element
types that are not known and text ranges that are the default may be left out, unknown members may
have come to any object. So the chain that is read has the places of the chain that was written.
-/

namespace StreamTrace

open Json (Amends AmendsMembers field fieldOr optionalField listOf)

/-! ## Reading -/

/-- What the written form of a chain may leave out. -/
def MayGo (name : String) (j : Json) : Prop :=
  name ∈ ["typeBefore", "typeAfter"] ∧ j = .null ∨
    name = "textRange" ∧ j = ({} : TextRange).toJson

theorem stays {name : String} {j : Json} (h : name ∉ ["typeBefore", "typeAfter", "textRange"]) :
    ¬MayGo name j := by
  rintro (⟨hname, -⟩ | ⟨rfl, -⟩)
  · exact h (List.mem_append_left ["textRange"] hname)
  · exact h (by simp)

section

variable {j : Json}

theorem string_read {s : String} (h : Amends MayGo (.str s) j) : j.asString? = some s := by
  rw [h.of_str]
  rfl

theorem strings_read {ss : List String} (h : Amends MayGo (.arr (ss.map .str)) j) :
    listOf Json.asString? j = some ss :=
  Json.listOf_amended h fun _ _ _ => string_read

theorem unsigned_read {n : UInt32} (h : Amends MayGo (.int n.toNat) j) :
    j.unsigned32? = some n := by
  rw [h.of_int, Json.unsigned32?, Json.natBelow?_int, if_pos n.toNat_lt, Option.map_some,
    UInt32.ofNat_toNat]

namespace TextRange

theorem ofJson?_amended {r : TextRange} (h : Amends MayGo r.toJson j) : ofJson? j = some r := by
  obtain ⟨members', rfl, hmembers⟩ := h.of_obj
  have hnodup : ["start", "end"].Nodup := by decide
  rw [ofJson?, Json.record]
  rw [hmembers.field_bind hnodup (List.mem_of_getElem? (i := 0) rfl) (stays (by decide))
      fun _ => unsigned_read,
    hmembers.field_bind hnodup (List.mem_of_getElem? (i := 1) rfl) (stays (by decide))
      fun _ => unsigned_read]
  rfl

end TextRange

namespace MethodSignature

theorem ofJson?_amended {m : MethodSignature} (h : Amends MayGo m.toJson j) :
    ofJson? j = some m := by
  obtain ⟨members', rfl, hmembers⟩ := h.of_obj
  have hnodup : ["containingClass", "name", "argumentTypes", "returnType"].Nodup := by decide
  rw [ofJson?, Json.record]
  rw [hmembers.field_bind hnodup (List.mem_of_getElem? (i := 0) rfl) (stays (by decide))
      fun _ => string_read,
    hmembers.field_bind hnodup (List.mem_of_getElem? (i := 1) rfl) (stays (by decide))
      fun _ => string_read,
    hmembers.field_bind hnodup (List.mem_of_getElem? (i := 2) rfl) (stays (by decide))
      fun _ => strings_read,
    hmembers.field_bind hnodup (List.mem_of_getElem? (i := 3) rfl) (stays (by decide))
      fun _ => string_read]
  rfl

end MethodSignature

namespace ElementType

theorem ofTypeName?_typeName (t : ElementType) : ofTypeName? t.typeName = some t := by
  cases t <;> decide

/-- Null is read as an element type that is not known. -/
theorem ofJson?_amended {o : Option ElementType} {buffered : Bool}
    (h : Amends MayGo (Json.ofOption toJson o) j) :
    Json.nullable (ofJson? buffered) j = some o := by
  cases o with
  | none =>
      rw [h.of_null]
      rfl
  | some t =>
      rw [Amends.of_str h]
      show (ofTypeName? t.typeName).map some = some (some t)
      rw [ofTypeName?_typeName]
      rfl

theorem eq_none_of_mayGo {name : String} {o : Option ElementType}
    (h : MayGo name (Json.ofOption toJson o)) : o = none := by
  cases o with
  | none => rfl
  | some t => rcases h with ⟨-, h⟩ | ⟨-, h⟩ <;> cases h

end ElementType

theorem TextRange.eq_of_mayGo {r : TextRange} (h : MayGo "textRange" r.toJson) : r = {} := by
  rcases h with ⟨-, h⟩ | ⟨-, h⟩
  · cases h
  · obtain ⟨start, stop⟩ := r
    simp only [TextRange.toJson, Json.obj.injEq, List.cons.injEq, Prod.mk.injEq, Json.int.injEq,
      Int.natCast_inj, UInt32.toNat_inj] at h
    simp [h]

namespace StreamCall

/-- The fields of a call are found among all members of the object that holds it. -/
theorem fields_amended {c : StreamCall} {buffered : Bool} {members members' : List (String × Json)}
    (h : AmendsMembers MayGo members members') (hnodup : (members.map (·.1)).Nodup)
    (hsub : c.members ⊆ members) :
    fields buffered (.named members') = some (c, .named members') := by
  have hmem : ∀ i m, c.members[i]? = some m → m ∈ members := fun _ _ hm =>
    hsub (List.mem_of_getElem? hm)
  rw [fields, h.field_bind hnodup (hmem 0 _ rfl) (stays (by decide)) fun _ => string_read,
    h.field_bind hnodup (hmem 1 _ rfl) (stays (by decide)) fun _ => strings_read,
    h.field_bind hnodup (hmem 2 _ rfl) (stays (by decide)) fun _ => string_read]
  rw [h.optionalField_bind hnodup (hmem 3 _ rfl) ElementType.eq_none_of_mayGo
      fun _ => ElementType.ofJson?_amended,
    h.optionalField_bind hnodup (hmem 4 _ rfl) ElementType.eq_none_of_mayGo
      fun _ => ElementType.ofJson?_amended,
    h.fieldOr_bind hnodup (hmem 5 _ rfl) TextRange.eq_of_mayGo fun _ => TextRange.ofJson?_amended]
  rfl

theorem ofJson?_amended {c : StreamCall} (h : Amends MayGo c.toJson j) : ofJson? j = some c := by
  obtain ⟨members', rfl, hmembers⟩ := h.of_obj
  have hnodup : ["name", "arguments", "declaringType", "typeBefore", "typeAfter",
    "textRange"].Nodup := by decide
  rw [ofJson?, Json.record, fields_amended hmembers hnodup (List.Subset.refl _)]
  rfl

end StreamCall

namespace TerminalCall

theorem ofJson?_amended {t : TerminalCall} (h : Amends MayGo t.toJson j) : ofJson? j = some t := by
  obtain ⟨members', rfl, hmembers⟩ := h.of_obj
  have hnodup : ["name", "arguments", "declaringType", "typeBefore", "typeAfter", "textRange",
    "resultType"].Nodup := by decide
  obtain ⟨j', hfound, hj'⟩ := hmembers.find? hnodup (List.mem_of_getElem? (i := 6) rfl)
    (stays (by decide))
  have hcall : StreamCall.fields true (.named members') =
      some (t.toStreamCall, .named members') :=
    StreamCall.fields_amended hmembers hnodup (List.subset_append_left _ _)
  show (StreamCall.fields true (.named members')).bind _ = _
  rw [hcall, Option.bind_some]
  show ((Json.find? members' "resultType").bind Json.asString?).bind _ = _
  rw [hfound, Option.bind_some, string_read hj']
  rfl

end TerminalCall

namespace Qualifier

theorem ofJson?_amended {q : Qualifier} (h : Amends MayGo q.toJson j) : ofJson? j = some q := by
  cases q with
  | var text name =>
      obtain ⟨members', rfl, hmembers⟩ := h.of_obj
      have hnodup : ["kind", "text", "variableName"].Nodup := by decide
      obtain ⟨kind, hkind, hkind'⟩ := hmembers.find? hnodup (List.mem_of_getElem? (i := 0) rfl)
        (stays (by decide))
      have htagged : (Json.obj members').tagged? = some ("variable", .obj members') := by
        rw [Json.tagged?, hkind, hkind'.of_str]
      rw [ofJson?, htagged]
      show Json.record _ (.obj members') = _
      rw [Json.record, hmembers.field_bind hnodup (List.mem_of_getElem? (i := 1) rfl)
          (stays (by decide)) fun _ => string_read,
        hmembers.field_bind hnodup (List.mem_of_getElem? (i := 2) rfl) (stays (by decide))
          fun _ => string_read]
      rfl
  | call text signature =>
      obtain ⟨members', rfl, hmembers⟩ := h.of_obj
      have hnodup : ["kind", "text", "signature"].Nodup := by decide
      obtain ⟨kind, hkind, hkind'⟩ := hmembers.find? hnodup (List.mem_of_getElem? (i := 0) rfl)
        (stays (by decide))
      have htagged : (Json.obj members').tagged? = some ("methodCall", .obj members') := by
        rw [Json.tagged?, hkind, hkind'.of_str]
      rw [ofJson?, htagged]
      show Json.record _ (.obj members') = _
      rw [Json.record, hmembers.field_bind hnodup (List.mem_of_getElem? (i := 1) rfl)
          (stays (by decide)) fun _ => string_read,
        hmembers.field_bind hnodup (List.mem_of_getElem? (i := 2) rfl) (stays (by decide))
          fun _ => MethodSignature.ofJson?_amended]
      rfl

end Qualifier

namespace StreamChain

theorem ofJson?_amended {c : StreamChain} (h : Amends MayGo c.toJson j) : ofJson? j = some c := by
  obtain ⟨members', rfl, hmembers⟩ := h.of_obj
  have hnodup : ["text", "qualifierExpression", "intermediateCalls", "terminationCall"].Nodup := by
    decide
  rw [ofJson?, Json.record, hmembers.field_bind hnodup (List.mem_of_getElem? (i := 0) rfl)
      (stays (by decide)) fun _ => string_read,
    hmembers.field_bind hnodup (List.mem_of_getElem? (i := 1) rfl) (stays (by decide))
      fun _ => Qualifier.ofJson?_amended,
    hmembers.field_bind hnodup (List.mem_of_getElem? (i := 2) rfl) (stays (by decide))
      fun _ h => Json.listOf_amended h fun _ _ _ => StreamCall.ofJson?_amended,
    hmembers.field_bind hnodup (List.mem_of_getElem? (i := 3) rfl) (stays (by decide))
      fun _ => TerminalCall.ofJson?_amended]
  rfl

end StreamChain

end

end StreamTrace
