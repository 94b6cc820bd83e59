import CppPractice.Pool.Futures
import CppPractice.Shared.Lists

set_option autoImplicit false

namespace CppPractice.WorkStealingThreadPool

variable {c : Config}

def squared (i : Nat) : UInt64 :=
  let x := UInt64.ofNat i
  x * x + 17 * UInt64.ofNat i

def expectedSum (kN : Nat) : UInt64 :=
  (List.range kN).foldl (fun expected_sum i => expected_sum + squared i) 0

def Gather.correct (g : Gather c) (kN : Nat) : Bool := !(g.sum != expectedSum kN)

section

variable (n_tasks block_size data_len : UInt64)

end

theorem foldl_sum (f : Nat → UInt64) (l : List Nat) :
    l.foldl (fun sum i => sum + f i) 0 = (l.map f).sum := by
  rw [List.sum_eq_foldl, List.foldl_map]

section

variable {block_size data_len : UInt64}

end

section

variable {main : Fin c.clients}

theorem Gather.total {work : Nat → UInt64} {n : Nat} {turns : List (Gather.Turn c)} {g : Gather c}
    {log : List (Gather.Turn c × Unit)}
    (ran : Runs.run (Gather.turn main work n) (Gather.start c) turns = some (g, log))
    (finished : g.Finished n) : g.sum = ((List.range n).map work).sum := by
  rw [(Gather.run_good ran).sum, finished.taken]

theorem correctness_passes {kN : Nat} {turns : List (Gather.Turn c)} {g : Gather c}
    {log : List (Gather.Turn c × Unit)}
    (ran : Runs.run (Gather.turn main squared kN) (Gather.start c) turns = some (g, log))
    (finished : g.Finished kN) : g.correct kN = true := by
  rw [Gather.correct, Gather.total ran finished, expectedSum, foldl_sum]
  simp

end

end CppPractice.WorkStealingThreadPool
