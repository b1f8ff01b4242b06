import Bindery.Html.Element

/-!
# Attributes read back

An attribute has the value that it was given last. Setting one that is there
changes the value of the first of its name, and no name, position or other value.
-/

set_option autoImplicit false

namespace Bindery.Html

def Attribute.key (item : Attribute) : AttributeSpace × String :=
  (item.space, item.name)

/-- The position of the first attribute of the name. -/
def Attribute.position (name : String) (attributes : List Attribute) : Nat :=
  attributes.findIdx (·.name = name)

/-- Nothing but the value of the first attribute of the name may be new. -/
structure Revalued (name : String) (before after : Element) : Prop where
  space : after.space = before.space
  elementName : after.name = before.name
  keys : after.attributes.map Attribute.key = before.attributes.map Attribute.key
  others : ∀ index, index ≠ Attribute.position name before.attributes →
    after.attributes[index]? = before.attributes[index]?
  values : ∀ other, other ≠ name → after.attribute? other = before.attribute? other

theorem Revalued.refl (name : String) (element : Element) : Revalued name element element :=
  ⟨rfl, rfl, rfl, fun _ _ => rfl, fun _ _ => rfl⟩

namespace Element

theorem setAttributeIn_eq_modify {name value : String} {attributes : List Attribute}
    (present : ∃ item ∈ attributes, item.name = name) :
    setAttributeIn name value attributes =
      attributes.modify (Attribute.position name attributes) ({ · with value := value }) := by
  induction attributes with
  | nil => simp at present
  | cons first rest ih =>
      by_cases same : first.name = name
      · simp [setAttributeIn, Attribute.position, List.findIdx_cons, same]
      · obtain ⟨item, member, named⟩ := present
        rcases List.mem_cons.mp member with rfl | member
        · exact absurd named same
        · have recursive := ih ⟨item, member, named⟩
          simpa [setAttributeIn, Attribute.position, List.findIdx_cons, same] using recursive

theorem attribute?_eq_none_iff {element : Element} {name : String} :
    element.attribute? name = none ↔ ∀ item ∈ element.attributes, item.name ≠ name := by
  simp [attribute?]

theorem exists_of_attribute? {element : Element} {name value : String}
    (found : element.attribute? name = some value) :
    ∃ item ∈ element.attributes, item.name = name := by
  obtain ⟨item, selected, -⟩ := Option.map_eq_some_iff.mp found
  exact ⟨item, List.mem_of_find?_eq_some selected, by simpa using List.find?_some selected⟩

@[simp] theorem name_removeAttribute (element : Element) (name : String) :
    (element.removeAttribute name).name = element.name := rfl

theorem find?_setAttributeIn_self (name value : String) (attributes : List Attribute) :
    ((setAttributeIn name value attributes).find? (·.name = name)).map (·.value) = some value := by
  induction attributes with
  | nil => simp [setAttributeIn, Attribute.plain]
  | cons first rest ih =>
      by_cases same : first.name = name
      · simp [setAttributeIn, same]
      · simpa [setAttributeIn, same] using ih

theorem find?_setAttributeIn_ne {name other : String} (value : String)
    (attributes : List Attribute) (different : other ≠ name) :
    ((setAttributeIn name value attributes).find? (·.name = other)).map (·.value) =
      (attributes.find? (·.name = other)).map (·.value) := by
  induction attributes with
  | nil => simp [setAttributeIn, Attribute.plain, different.symm]
  | cons first rest ih =>
      by_cases same : first.name = name
      · simp [setAttributeIn, same, different.symm]
      · by_cases wanted : first.name = other
        · simp [setAttributeIn, wanted, different]
        · simpa [setAttributeIn, same, wanted] using ih

@[simp] theorem attribute?_setAttribute_self (element : Element) (name value : String) :
    (element.setAttribute name value).attribute? name = some value :=
  find?_setAttributeIn_self name value element.attributes

theorem attribute?_setAttribute_ne (element : Element) {name other : String} (value : String)
    (different : other ≠ name) :
    (element.setAttribute name value).attribute? other = element.attribute? other :=
  find?_setAttributeIn_ne value element.attributes different

theorem attribute?_removeAttribute_ne (element : Element) {name other : String}
    (different : other ≠ name) :
    (element.removeAttribute name).attribute? other = element.attribute? other := by
  rw [attribute?, attribute?, removeAttribute, List.find?_filter]
  congr 2
  funext item
  by_cases same : item.name = other
  · simp [same, different]
  · simp [same]

theorem removeAttribute_eq_self {element : Element} {name : String}
    (absent : element.attribute? name = none) : element.removeAttribute name = element := by
  have kept : element.attributes.filter (·.name ≠ name) = element.attributes :=
    List.filter_eq_self.mpr fun item member => by
      simpa using attribute?_eq_none_iff.mp absent item member
  rw [removeAttribute, kept]

theorem setAttributeIn_eq_self {name value : String} {attributes : List Attribute}
    (found : (attributes.find? (·.name = name)).map (·.value) = some value) :
    setAttributeIn name value attributes = attributes := by
  induction attributes with
  | nil => cases found
  | cons first rest ih =>
      by_cases same : first.name = name
      · have written : first.value = value := by simpa [same] using found
        rw [setAttributeIn, if_pos same, ← written]
      · rw [setAttributeIn, if_neg same, ih (by simpa [same] using found)]

theorem setAttribute_eq_self {element : Element} {name value : String}
    (found : element.attribute? name = some value) : element.setAttribute name value = element := by
  rw [setAttribute, setAttributeIn_eq_self found]

theorem map_key_setAttribute {element : Element} {name : String} (value : String)
    (present : ∃ item ∈ element.attributes, item.name = name) :
    (element.setAttribute name value).attributes.map Attribute.key =
      element.attributes.map Attribute.key := by
  rw [setAttribute, setAttributeIn_eq_modify present]
  apply List.ext_getElem?
  intro index
  rw [List.getElem?_map, List.getElem?_map, List.getElem?_modify]
  cases element.attributes[index]? with
  | none => rfl
  | some item =>
      by_cases first : Attribute.position name element.attributes = index
      · simp [first, Attribute.key]
      · simp [first]

theorem getElem?_setAttribute_ne {element : Element} {name : String} (value : String)
    (present : ∃ item ∈ element.attributes, item.name = name) {index : Nat}
    (other : index ≠ Attribute.position name element.attributes) :
    (element.setAttribute name value).attributes[index]? = element.attributes[index]? := by
  rw [setAttribute, setAttributeIn_eq_modify present]
  exact List.getElem?_modify_ne _ _ other.symm

/-- Setting an attribute that is there gives a new value and nothing else. -/
theorem revalued_setAttribute {element : Element} {name old : String} (value : String)
    (found : element.attribute? name = some old) :
    Revalued name element (element.setAttribute name value) where
  space := rfl
  elementName := rfl
  keys := map_key_setAttribute value (exists_of_attribute? found)
  others := fun _ other => getElem?_setAttribute_ne value (exists_of_attribute? found) other
  values := fun _ different => attribute?_setAttribute_ne element value different

theorem position_congr {left right : List Attribute} (name : String)
    (same : left.map Attribute.key = right.map Attribute.key) :
    Attribute.position name left = Attribute.position name right := by
  have through : ∀ attributes : List Attribute,
      Attribute.position name attributes =
        (attributes.map Attribute.key).findIdx (·.2 = name) := by
    intro attributes
    rw [List.findIdx_map]
    rfl
  rw [through, through, same]

end Element

end Bindery.Html
