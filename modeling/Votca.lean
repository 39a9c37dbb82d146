import Votca.Fmatch.Basic
import Votca.Fmatch.BeginCG
import Votca.Fmatch.Householder
import Votca.Fmatch.Solve
import Votca.Fmatch.NullSpace
import Votca.Fmatch.Frame
import Votca.Fmatch.Run
import Votca.Fmatch.Reachable
import Votca.Fmatch.EndCG
import Votca.Fmatch.Statistics
import Votca.Fmatch.Calls
import Votca.Fmatch.FitSystem
import Votca.Fmatch.Objective
import Votca.Xtp.InteractionTensor
import Votca.Ctp.PolarSeg
import Votca.Csg.Scripts
