import ModelExpr.Session.Request
import ModelExpr.Proofs.Client.Access
import ModelExpr.Proofs.Client.Traversal
import ModelExpr.Proofs.Workshop.AllOrNothing
import ModelExpr.Proofs.Client.Rebuild
import ModelExpr.Proofs.Client.Transparency
import ModelExpr.Proofs.Script.Order
import ModelExpr.Proofs.Workshop.Requirement
import ModelExpr.Proofs.Workshop.Log
import ModelExpr.Proofs.Workshop.Order
import ModelExpr.Proofs.Workshop.Callees
import ModelExpr.Proofs.Workshop.Cursors
import ModelExpr.Proofs.Draft.Filling
import ModelExpr.Proofs.Factory.Filling
import ModelExpr.Proofs.Workshop.Filling
import ModelExpr.Proofs.Client.Identity
import ModelExpr.Proofs.Factory.Counts
import ModelExpr.Proofs.Workshop.Functions
import ModelExpr.Proofs.Workshop.Reserved
import ModelExpr.Proofs.Workshop.Series
