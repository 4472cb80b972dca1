import ApiSurface.Failure
import ApiSurface.Log.Event

/-!
Results together with the notices made on the way to them. What was noted before a failure stays.
-/

namespace ApiSurface

structure Traced (α : Type) where
  notices : List Notice
  result : Except Failure α

namespace Traced

variable {α β : Type}

def fail (failure : Failure) : Traced α := ⟨[], .error failure⟩

def note (notices : List Notice) : Traced Unit := ⟨notices, .ok ()⟩

def ofExcept (result : Except Failure α) : Traced α := ⟨[], result⟩

def ofFault (result : Except Fault α) : Traced α := ⟨[], result.mapError .fault⟩

def andThen (first : Traced α) (next : α → Traced β) : Traced β :=
  match first.result with
  | .error failure => ⟨first.notices, .error failure⟩
  | .ok value => ⟨first.notices ++ (next value).notices, (next value).result⟩

instance : Monad Traced where
  pure value := ⟨[], .ok value⟩
  bind := andThen

end Traced

end ApiSurface
