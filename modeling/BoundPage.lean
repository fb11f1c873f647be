import BoundPage.Browser
import BoundPage.Main
import BoundPage.Proofs.Browser
import BoundPage.Proofs.Dependency
import BoundPage.Proofs.Engine.Counters
import BoundPage.Proofs.Engine.Cycles
import BoundPage.Proofs.Engine.Effects
import BoundPage.Proofs.Engine.FirstSlots
import BoundPage.Proofs.Engine.FreshItems
import BoundPage.Proofs.Engine.Insertions
import BoundPage.Proofs.Engine.Isolation
import BoundPage.Proofs.Engine.ItemStyles
import BoundPage.Proofs.Engine.Lists
import BoundPage.Proofs.Engine.Machine
import BoundPage.Proofs.Engine.MissingEntries
import BoundPage.Proofs.Engine.PlacedOrder
import BoundPage.Proofs.Engine.Precedence
import BoundPage.Proofs.Engine.RebuiltLists
import BoundPage.Proofs.Engine.Repeated
import BoundPage.Proofs.Engine.Replay
import BoundPage.Proofs.Engine.Shown
import BoundPage.Proofs.Engine.Skips
import BoundPage.Proofs.Engine.Spacing
import BoundPage.Proofs.Engine.Tables
import BoundPage.Proofs.Engine.Visibility
import BoundPage.Proofs.Recording.Check
import BoundPage.Proofs.Reference.Marks
import BoundPage.Proofs.Reference.Shape
import BoundPage.Proofs.Surface.Descriptions
import BoundPage.Proofs.Surface.Removal
import BoundPage.Proofs.Surface.Spacing
import BoundPage.Proofs.Surface.Substitution
import BoundPage.Proofs.Write.Shadows
