import BucketCluster.Text.Utf8
import BucketCluster.SortedMap

/-!
# Keys

A document is stored under a key: any byte string, the empty one included.  Keys
are ordered byte by byte, which is the order of texts for keys that are UTF-8.
-/

namespace BucketCluster

/-- The key of a document. -/
structure Key where
  bytes : Bytes
deriving DecidableEq, Repr, Inhabited

namespace Key

/-- Byte order. -/
instance : Ord Key := ⟨fun a b => compare a.bytes b.bytes⟩

theorem compare_def (a b : Key) : compare a b = compare a.bytes b.bytes := rfl

instance : Std.TransOrd Key where
  eq_swap {a b} :=
    show compare a.bytes b.bytes = (compare b.bytes a.bytes).swap from Std.OrientedCmp.eq_swap
  isLE_trans {a b c} h₁ h₂ :=
    show (compare a.bytes c.bytes).isLE from
      Std.TransCmp.isLE_trans (show (compare a.bytes b.bytes).isLE from h₁) h₂

instance : Std.LawfulEqOrd Key where
  compare_self {a} := show compare a.bytes a.bytes = .eq from Std.ReflCmp.compare_self
  eq_of_compare {a b} h := by
    cases a; cases b
    exact congrArg Key.mk (Std.LawfulEqCmp.eq_of_compare h)

/-- The key spelled by a text. -/
def ofText (s : String) : Key := ⟨Utf8.encode s⟩

/-- The key as text, if it is one. -/
def text? (k : Key) : Option String := Utf8.decode? k.bytes

/-- The key as it is shown to people. -/
def shown (k : Key) : String := Utf8.lossy k.bytes

end Key

/-- A set of keys. -/
abbrev KeySet := SortedSet Key

end BucketCluster
