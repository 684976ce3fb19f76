import StreamTrace.HelperClass
import StreamTrace.Jvm.TypeName

/-!
# Names of array types

The name of an array type, its signature and the name under which its class is looked up all come
from the component. They are computed here for components that are no arrays themselves.
-/

namespace StreamTrace

namespace JavaType

theorem replaceChar_of_notMem {old new : Char} {cs : List Char} (h : old ∉ cs) :
    replaceChar old new cs = cs := by
  induction cs with
  | nil => rfl
  | cons c rest ih =>
      have hne : c ≠ old := fun heq => h (heq ▸ List.mem_cons_self)
      have hrest := ih fun hmem => h (List.mem_cons_of_mem c hmem)
      show (if c = old then new else c) :: replaceChar old new rest = _
      rw [if_neg hne, hrest]

/-- Replacing there and back changes nothing if the new character was not there before. -/
theorem replaceChar_replaceChar {old new : Char} {cs : List Char} (h : new ∉ cs) :
    replaceChar new old (replaceChar old new cs) = cs := by
  induction cs with
  | nil => rfl
  | cons c rest ih =>
      have hne : c ≠ new := fun heq => h (heq ▸ List.mem_cons_self)
      have hrest := ih fun hmem => h (List.mem_cons_of_mem c hmem)
      show (if (if c = old then new else c) = new then old else if c = old then new else c) ::
        replaceChar new old (replaceChar old new rest) = _
      rw [hrest]
      by_cases hc : c = old
      · simp [hc]
      · simp [hc, hne]

theorem ofName_brackets (cs : List Char) : ofName (cs ++ ['[', ']']) = array (ofName cs) := by
  unfold ofName
  rw [List.reverse_append]
  rfl

end JavaType

/-- The type that a name stands for can be told from its signature, in which there is no dot. -/
structure IsComponent (name : String) : Prop where
  dotless : '.' ∉ (JavaType.ofName name.toList).signature
  reads : JavaType.ofSignature? (JavaType.ofName name.toList).signature =
    some (JavaType.ofName name.toList, [])
  spelled : (JavaType.ofName name.toList).name = name.toList

instance (name : String) : Decidable (IsComponent name) :=
  decidable_of_iff ('.' ∉ (JavaType.ofName name.toList).signature ∧
    JavaType.ofSignature? (JavaType.ofName name.toList).signature =
      some (JavaType.ofName name.toList, []) ∧
    (JavaType.ofName name.toList).name = name.toList)
    ⟨fun ⟨h₁, h₂, h₃⟩ => ⟨h₁, h₂, h₃⟩, fun ⟨h₁, h₂, h₃⟩ => ⟨h₁, h₂, h₃⟩⟩

section

variable {name : String}

theorem toList_brackets (name : String) : (s!"{name}[]").toList = name.toList ++ ['[', ']'] := by
  simp [toString]

theorem endsWithBrackets_array (name : String) : endsWithBrackets s!"{name}[]" = true := by
  unfold endsWithBrackets
  rw [toList_brackets, List.reverse_append]
  rfl

theorem toList_typeNameToSignature (name : String) :
    (typeNameToSignature name).toList = (JavaType.ofName name.toList).signature :=
  String.toList_ofList

theorem typeNameToSignature_array (name : String) :
    typeNameToSignature s!"{name}[]" = s!"[{typeNameToSignature name}" := by
  apply String.toList_injective
  rw [toList_typeNameToSignature, toList_brackets, JavaType.ofName_brackets]
  simp [toString, toList_typeNameToSignature, JavaType.signature]

theorem IsComponent.signatureToTypeName? (h : IsComponent name) :
    signatureToTypeName? (typeNameToSignature name) = some name := by
  unfold StreamTrace.signatureToTypeName?
  rw [toList_typeNameToSignature, h.reads]
  show some (String.ofList (JavaType.ofName name.toList).name) = _
  rw [h.spelled, String.ofList_toList]

theorem IsComponent.signatureToTypeName?_array (h : IsComponent name) :
    StreamTrace.signatureToTypeName? s!"[{typeNameToSignature name}" = some s!"{name}[]" := by
  unfold StreamTrace.signatureToTypeName?
  have htoList : (s!"[{typeNameToSignature name}").toList =
      '[' :: (JavaType.ofName name.toList).signature := by
    simp [toString, toList_typeNameToSignature]
  have hreads : JavaType.ofSignature? ('[' :: (JavaType.ofName name.toList).signature) =
      some (.array (JavaType.ofName name.toList), []) := by
    show (JavaType.ofSignature? (JavaType.ofName name.toList).signature).map _ = _
    rw [h.reads]
    rfl
  rw [htoList, hreads]
  show some (String.ofList ((JavaType.ofName name.toList).name ++ ['[', ']'])) = _
  rw [h.spelled, ← toList_brackets, String.ofList_toList]

/-- The class of an array is looked up by its signature, in which dots stand for slashes. -/
theorem IsComponent.lookupName_array (h : IsComponent name) :
    ∃ rest, (lookupName s!"{name}[]").toList = '[' :: rest ∧
      String.ofList (JavaType.replaceChar '.' '/' rest) = typeNameToSignature name := by
  refine ⟨JavaType.replaceChar '/' '.' (JavaType.ofName name.toList).signature, ?_, ?_⟩
  · unfold lookupName
    rw [endsWithBrackets_array, if_pos rfl, String.toList_ofList, typeNameToSignature_array]
    simp [toString, toList_typeNameToSignature, JavaType.replaceChar]
  · rw [JavaType.replaceChar_replaceChar h.dotless]
    rfl

end

/-- The components of the arrays that a trace makes. -/
def arrayElements : List String :=
  [ClassName.object, ClassName.throwable, "boolean", "byte", "char", "short", "int", "long",
    "float", "double"]

theorem isComponent_of_mem {name : String} (h : name ∈ arrayElements) : IsComponent name := by
  have hall : ∀ name ∈ arrayElements, IsComponent name := by decide +kernel
  exact hall name h

end StreamTrace
