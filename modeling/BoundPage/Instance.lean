import BoundPage.Variables
import BoundPage.External.Basic
/-!
# Instances

One running page: its variables and its external children.
-/
namespace BoundPage

structure Instance where
  store : Variables := ∅
  externals : ExternalChildren := ∅

instance : Inhabited Instance := ⟨{}⟩

end BoundPage
