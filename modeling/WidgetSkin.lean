import WidgetSkin.Editor.Description
import WidgetSkin.Image.Probe
import WidgetSkin.Main
import WidgetSkin.Proofs.Canvas.Integrity
import WidgetSkin.Proofs.Design.Spelling
import WidgetSkin.Proofs.Editor.Compiled
import WidgetSkin.Proofs.Editor.Independence
import WidgetSkin.Proofs.Editor.Neighbours
import WidgetSkin.Proofs.Editor.Placement
import WidgetSkin.Proofs.Editor.Rasters
import WidgetSkin.Proofs.Editor.Revision
import WidgetSkin.Proofs.Editor.Saved
import WidgetSkin.Proofs.Font.Directory
import WidgetSkin.Proofs.Layer.Panel
import WidgetSkin.Proofs.Skin.Alike
import WidgetSkin.Proofs.Skin.CopyOrder
import WidgetSkin.Proofs.Skin.FirstSeen
import WidgetSkin.Proofs.Skin.LineBreaks
import WidgetSkin.Proofs.Skin.Numbers
import WidgetSkin.Proofs.Skin.Removal
import WidgetSkin.Proofs.Skin.Unfinished
