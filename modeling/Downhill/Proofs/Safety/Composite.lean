import Downhill.Method.ProximalGradient
import Downhill.Proofs.ProximalMomentum.Landing
import Downhill.Proofs.Run.Safety

namespace Downhill

variable {α : Type} [Scalar α] {p : Composite α} {n : Nat} {x : Coords α}

omit [Scalar α] in
theorem Composite.Complete.lands (complete : p.Complete n) : p.prox.Lands n fun _ => True := by
  intro u t size
  obtain ⟨q, found, qSize⟩ := complete.prox u t size
  exact ⟨q, found, qSize, trivial⟩

theorem ProximalGradient.step_ends {config : Config α} {s : PointState α} (complete : p.Complete n)
    (fits : s.point.size = n) : (step config p s).Ends (fun s' => s'.point.size = n) fun _ => False := by
  unfold step
  refine (Work.ends_checked (complete.smooth.expand s.point fits)).bind fun (loss, gradient) same => ?_
  have searched := Majorant.run_lands complete.smooth.toConforming complete.lands fits same loss tag 1 config.beta
  refine (Work.ends_ok searched).bind fun found ⟨fSize, _⟩ => ?_
  exact (Work.ends_checked (Coords.sub_ok fits fSize)).bind fun change _ => Work.ends_pure fSize

theorem ProximalGradient.guarded (complete : p.Complete n) (size : x.size = n) (config : Config α) :
    method.Guarded config p x (fun s => s.point.size = n) (fun _ => False) fun _ => False where
  start := Work.ends_pure size
  step _ _ fits := step_ends complete fits
  tracked s fits quantity member := by
    obtain rfl := List.mem_singleton.mp member
    exact complete.smooth.value s.point fits

theorem ProximalMomentum.guarded (complete : p.Complete n) (size : x.size = n) (config : Config α) :
    method.Guarded config p x (Placed n fun _ => True) (fun _ => False) fun _ => False :=
  (unfailing_of_expandable complete.smooth.toConforming complete.smooth.expand complete.lands size trivial).guarded

end Downhill
