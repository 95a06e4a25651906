import HfsPlus.Device.Faulty
import HfsPlus.Main
import HfsPlus.Proofs.Fork.Read
import HfsPlus.Proofs.Tree.NotFound
import HfsPlus.Proofs.Volume.Agree
import HfsPlus.Proofs.Tree.Chain
import HfsPlus.Proofs.Tree.Bounds
import HfsPlus.Proofs.Tree.Circle
import HfsPlus.Proofs.Fork.Contents
import HfsPlus.Proofs.Tree.Layout
import HfsPlus.Proofs.Volume.Ends
import HfsPlus.Proofs.Volume.Confined
import HfsPlus.Proofs.Volume.Failures
import HfsPlus.Proofs.Volume.Names
import HfsPlus.Proofs.Volume.Paths
import HfsPlus.Proofs.Checked.Operations
import HfsPlus.Proofs.Fork.Cut
import HfsPlus.Proofs.Fork.Image
import HfsPlus.Proofs.CommandLine.Output
import HfsPlus.Proofs.Device.Padding
import HfsPlus.Proofs.Volume.Padding
import HfsPlus.Proofs.Extent.Runs
import HfsPlus.Proofs.Catalog.Lexicographic
import HfsPlus.Proofs.Fork.FirstFailure
import HfsPlus.Proofs.CommandLine.Copy
import HfsPlus.Proofs.CommandLine.Listing
import HfsPlus.Proofs.Volume.Positions
import HfsPlus.Proofs.CommandLine.Folder
import HfsPlus.Proofs.Tree.Offsets
import HfsPlus.Proofs.Format.Structures
import HfsPlus.Proofs.Catalog.KeyFormat
import HfsPlus.Proofs.Volume.Walks
import HfsPlus.Proofs.Tree.HeaderRecord
import HfsPlus.Proofs.Tree.Links
import HfsPlus.Proofs.Catalog.Payload
import HfsPlus.Proofs.Tree.Rounds
