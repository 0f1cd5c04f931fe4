import GuiLibrary.Additions
import GuiLibrary.Announcements
import GuiLibrary.Attributes
import GuiLibrary.BindingHistory
import GuiLibrary.BindingTargets
import GuiLibrary.Bounds
import GuiLibrary.ButtonCells
import GuiLibrary.Callbacks
import GuiLibrary.Clicks
import GuiLibrary.Completion
import GuiLibrary.Contents
import GuiLibrary.Cuts
import GuiLibrary.Damage
import GuiLibrary.Data.Leaks
import GuiLibrary.Data.Lines
import GuiLibrary.Data.Registry
import GuiLibrary.Data.Sliding
import GuiLibrary.Destructors
import GuiLibrary.Display
import GuiLibrary.Drags
import GuiLibrary.Games.Puzzle
import GuiLibrary.Games.Two048Play
import GuiLibrary.Globals
import GuiLibrary.HitTesting
import GuiLibrary.Images
import GuiLibrary.Lifetime
import GuiLibrary.Locations
import GuiLibrary.PartialRedraw
import GuiLibrary.Picks
import GuiLibrary.Pixels
import GuiLibrary.Placements
import GuiLibrary.Presses
import GuiLibrary.Pressing
import GuiLibrary.QuitButtons
import GuiLibrary.Reentrancy
import GuiLibrary.Registries
import GuiLibrary.Repainting
import GuiLibrary.Screens
import GuiLibrary.Showing
import GuiLibrary.Sizes
import GuiLibrary.Stacking
import GuiLibrary.Storage
import GuiLibrary.Stretching
import GuiLibrary.Termination
import GuiLibrary.Texts
import GuiLibrary.Updates
import GuiLibrary.Visibility
