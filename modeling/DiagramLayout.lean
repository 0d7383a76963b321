import DiagramLayout.Json
import DiagramLayout.Main
import DiagramLayout.Proofs.Capacity
import DiagramLayout.Proofs.Classifiers.Choosing
import DiagramLayout.Proofs.Classifiers.Clearing
import DiagramLayout.Proofs.Classifiers.Embracing
import DiagramLayout.Proofs.Classifiers.Groups
import DiagramLayout.Proofs.Classifiers.Rows
import DiagramLayout.Proofs.Classifiers.Slots
import DiagramLayout.Proofs.Composing.Filling
import DiagramLayout.Proofs.FeatureOrder
import DiagramLayout.Proofs.Labels.Placing
import DiagramLayout.Proofs.Ranking.Infinity
import DiagramLayout.Proofs.Rect.Fitting
import DiagramLayout.Proofs.Renaming
import DiagramLayout.Proofs.Report
import DiagramLayout.Proofs.Routing.Building
import DiagramLayout.Proofs.Routing.Free
import DiagramLayout.Proofs.Scale.Reading
import DiagramLayout.Proofs.SideWalk
import DiagramLayout.Proofs.Stacking
import DiagramLayout.Proofs.Turns
import DiagramLayout.Scalar.Exact
