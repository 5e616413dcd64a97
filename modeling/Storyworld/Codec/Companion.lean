import Storyworld.Codec.Effect
import Storyworld.Session

/-!
# Codec of what companions and players are told

The questions put to the companions, and the summary of a session, as data.
-/

namespace Storyworld

open Datum

def Candidate.toDatum (c : Candidate) : Datum :=
  .record [("key", c.key.toDatum), ("name", .text c.name), ("names", ofTexts c.names)]

def IntentRequest.toDatum (r : IntentRequest) : Datum :=
  .record [("text", .text r.text), ("vocabulary", ofList Candidate.toDatum r.vocabulary),
    ("phrases", ofList (fun p => .list [.text p.1, .text p.2]) r.phrases),
    ("inventory", ofTexts r.inventory)]

def FiredBeat.toDatum (b : FiredBeat) : Datum :=
  .record [("id", .text b.id), ("name", ofOption .text b.name),
    ("effects", ofList Effect.toDatum b.effects), ("narrative", ofOption .text b.narrative)]

def Transition.toDatum (t : Transition) : Datum :=
  .record [("from", .text t.origin), ("to", .text t.destination), ("name", ofOption .text t.name),
    ("gate_beat", ofOption FiredBeat.toDatum t.gateBeat), ("narrative", ofOption .text t.narrative)]

namespace Narration

def Prior.toDatum (p : Prior) : Datum :=
  .record [("location", .text p.location), ("act", .text p.act), ("inventory", ofTexts p.inventory)]

def ToldEffect.toDatum (e : ToldEffect) : Datum :=
  .record [("effect", e.effect.toDatum), ("subject", ofOption .text e.subject),
    ("object", ofOption .text e.object), ("guidance", ofOption .text e.guidance)]

def Scene.toDatum (s : Scene) : Datum :=
  .record [("name", .text s.name), ("description", .text s.description),
    ("characters", ofTexts s.characters), ("items", ofTexts s.items), ("exits", ofTexts s.exits),
    ("guidance", ofOption .text s.guidance)]

def Examined.toDatum (e : Examined) : Datum :=
  .record [("kind", ofOption EntityKind.toDatum e.kind), ("name", .text e.name),
    ("description", .text e.description), ("guidance", ofOption .text e.guidance)]

def VictoryNote.toDatum (n : VictoryNote) : Datum :=
  .record [("id", .text n.id), ("narrative", ofOption .text n.narrative)]

def Request.toDatum (r : Request) : Datum :=
  .record [("turn", ofWord r.turn), ("prior", r.prior.toDatum), ("action", .text r.action),
    ("effects", ofList ToldEffect.toDatum r.effects), ("beats", ofList FiredBeat.toDatum r.beats),
    ("transition", ofOption Transition.toDatum r.transition),
    ("response", ofOption .text r.response), ("scene", ofOption Scene.toDatum r.scene),
    ("examined", ofOption Examined.toDatum r.examined),
    ("victory", ofOption VictoryNote.toDatum r.victory)]

end Narration

/-- Writes the summary of a session, without its identifier. -/
def SessionStatus.toDatum (s : SessionStatus) : Datum :=
  .record [("turn", ofWord s.turn), ("location", .text s.location), ("act", .text s.act),
    ("spokes", ofList (fun p =>
      .record [("name", .text p.name), ("completed", .bool p.completed)]) s.spokes),
    ("inventory", ofTexts s.inventory), ("victory", ofOption .text s.victory)]

end Storyworld
