/-!
# Command ids

A command id ties a request to the response that the kernel eventually writes for it. Ids are 16
bits wide, and `0` is never handed out, so the usable ids form the cycle `1, 2, …, 65535, 1, …`.
-/

namespace CommandRing

/-- Correlates a request with its response. -/
abbrev CommandId := UInt16

namespace CommandId

/-- How many ids the cycle holds. -/
def count : Nat := 65535

/-- The id after `id` in the cycle, which steps over `0`. -/
def successor (id : CommandId) : CommandId :=
  if id + 1 = 0 then 1 else id + 1

theorem successor_ne_zero (id : CommandId) : id.successor ≠ 0 := by
  unfold successor
  split <;> simp_all

end CommandId

end CommandRing
