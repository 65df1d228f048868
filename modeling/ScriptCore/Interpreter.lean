import ScriptCore.Host.Construction
import ScriptCore.Script.Statement

namespace ScriptCore.Evaluator

def respond (ev : Evaluator) {α : Type} : Request α → Run α
  | .call f args => ev.callValue f args
  | .text v => ev.textOf v
  | .describe v => ev.describeOf v
  | .equal a b => ev.equalTo a b
  | .hash v => ev.hashOf v
  | .enter s name args declaredOnly => Run.onStack [s] (ev.invokeIn s name args .hostCall declaredOnly none)
  | .setUp s v c args => Run.onStack [s] (ev.setUpScripted v c args .hostCall)

def level (fuel : Nat) (below : Unit → Evaluator) : Evaluator where
  fuel
  exec n := fun σ => (below ()).evalNode n σ
  answer r := operation fun w => (below ()).respond r w

def ofFuel : Nat → Evaluator
  | 0 => exhausted
  | n + 1 => level (n + 1) fun _ => ofFuel n

end ScriptCore.Evaluator
