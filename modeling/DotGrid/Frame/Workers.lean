import DotGrid.Syntax.Expr
import DotGrid.Value.Fault

/-!
# Workers of a pool

A pool has a bounded number of workers. What a worker is to do is written down for it, and with it the tree of the
function: each node is written from the inside of the nodes around it, some layers further down, and the number of
layers is bounded as well.

The system is taken to have room for all workers of a pool that can be opened.
-/

namespace DotGrid

namespace Expr

/-- The number of layers of a node. -/
def nodeLayers : Nat := 3

mutual

/-- The number of layers in which a tree is written. The arguments of a call are one layer further down than its
function. A tree without parts is in the layer around it. -/
def layers : Expr → Nat
  | .number _ | .name _ | .foreign _ => 0
  | .unary _ a => layers a + nodeLayers
  | .binary _ a b | .logical _ a b => max (layers a) (layers b) + nodeLayers
  | .conditional a b c => max (layers a) (max (layers b) (layers c)) + nodeLayers
  | .call f args => max (layers f) (if args.isEmpty then 0 else layersOfAll args + 1) + nodeLayers
  | .unsupported _ operands => layersOfAll operands + nodeLayers

/-- The greatest number of layers of some trees. -/
def layersOfAll : List Expr → Nat
  | [] => 0
  | e :: es => max (layers e) (layersOfAll es)

end

end Expr

/-- The greatest number of layers in which a tree can be written. -/
def deepestSent : Nat := 984

/-- The greatest number of workers of a pool. -/
def mostWorkers : Int := 2147483646

/-- Why no pool is opened for some workers, if so. -/
def poolFault? (workers : Int) : Option Fault := if mostWorkers < workers then some .tooManyWorkers else none

end DotGrid
