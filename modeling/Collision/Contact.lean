import Collision.Space.Vector

/-!
# Contacts

Where two shapes touch, and lists of such places.

Main definitions.

* `Contact` has a position, a normal from the first shape towards the second, a depth, and an
  identity once it is remembered. Moving the second shape along the normal by the depth separates
  the pair.
* `Contacts.deepest?` is the contact of largest depth, `Contacts.limit` keeps the deepest contacts
  of a list that is too long, and `Contacts.flipped` is the list seen from the other shape.
* `GeomId` and `ContactId` are handles; handles are given out by counting.
-/

set_option autoImplicit false
set_option relaxedAutoImplicit false

namespace Collision

/-- The handle of a geom. -/
abbrev GeomId := Nat

/-- The identity of a remembered contact. A natural number counts as a counter of 64 bits does in
every run that gives out fewer than 2^64 identities. -/
abbrev ContactId := Nat

/-- The text of a geom handle. -/
def GeomId.text (id : GeomId) : String := "Geom(" ++ toString id ++ ")"

/-- The text of a contact identity. -/
def ContactId.text (id : ContactId) : String := "Contact(" ++ toString id ++ ")"

/-- A contact between two shapes. -/
structure Contact (α : Type) where
  position : Vec3 α
  /-- The direction from the first shape towards the second. -/
  normal : Vec3 α
  /-- How deep the shapes overlap. -/
  depth : α
  /-- The identity of a remembered contact. -/
  id? : Option ContactId := none
  deriving Inhabited

/-- The contact seen from the other shape. -/
def Contact.flipped {α : Type} [Scalar α] (c : Contact α) : Contact α :=
  { c with normal := -c.normal }

/-- The contacts of one pair. -/
abbrev Contacts (α : Type) := List (Contact α)

namespace Contacts

variable {α : Type} [Scalar α]

/-- The contact of largest depth, the last one of several. -/
def deepest? (contacts : Contacts α) : Option (Contact α) :=
  Scalar.lastMaxBy? Contact.depth contacts

/-- The contacts seen from the other shape. -/
def flipped (contacts : Contacts α) : Contacts α := contacts.map Contact.flipped

/-- At most `count` contacts. A list that is too long is sorted by falling depth, contacts of equal
depth in their order, and cut; a list that is not stays as it is. -/
def limit (count : Nat) (contacts : Contacts α) : Contacts α :=
  if contacts.length ≤ count then contacts
  else (Scalar.sortDescending Contact.depth contacts).take count

end Contacts

end Collision
