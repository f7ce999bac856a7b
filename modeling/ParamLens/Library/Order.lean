/-! Putting items in an order in which each one comes after those it depends on. Items on a cycle,
and those that depend on them, follow at the end in their given order. -/

namespace ParamLens.Library

variable {α : Type} [BEq α]

/-- The items that become free when `current`, the last of `done`, is put in its place: they depend
on it, and as many of their dependencies are done as they wait for. -/
def freedBy (items : List α) (dependencies : α → List α) (degree : α → Nat) (done : List α)
    (current : α) : List α :=
  items.filter fun item =>
    (dependencies item).contains current &&
      (done.filter (dependencies item).contains).length == degree item

/-- The free items in the order in which they become free, for at most `fuel` items. -/
def freeOrder (items : List α) (dependencies : α → List α) (degree : α → Nat) :
    Nat → List α → List α → List α
  | 0, _, done => done
  | _, [], done => done
  | fuel + 1, current :: queue, done =>
    freeOrder items dependencies degree fuel
      (queue ++ freedBy items dependencies degree (done ++ [current]) current) (done ++ [current])

/-- The items in the order of their dependencies, where an item waits for `degree` of them. -/
def orderBy (items : List α) (dependencies : α → List α) (degree : α → Nat) : List α :=
  let free := freeOrder items dependencies degree items.length
    (items.filter fun item => degree item == 0) []
  free ++ items.filter fun item => !free.contains item

/-- Files in the order of their dependencies: a file waits for all of them. -/
def orderFiles (files : List α) (dependencies : α → List α) : List α :=
  orderBy files dependencies fun file => (dependencies file).length

/-- Classes in the order of inheritance: a class waits for those of its bases that are among the
classes. -/
def orderClasses (classes : List α) (bases : α → List α) : List α :=
  orderBy classes bases fun c => ((bases c).filter classes.contains).length

end ParamLens.Library
