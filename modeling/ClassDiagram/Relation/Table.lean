import ClassDiagram.Relation.Pattern
/-!
The table of relation patterns, tightest first, and the search for a relation in a line. The first
row that matches anywhere decides the kind, so `*--` and `o--` stand before the plain `--`.
-/

namespace ClassDiagram.Relation

def patterns : List Pattern :=
  -- A <|-[style]- B
  [⟨.inheritance, .entity, [.text "<|", .run '-', .style], .turned⟩,
   -- A <|--d B
   ⟨.inheritance, .entity, [.text "<|", .run '-', .turn], .spaced⟩,
   -- A <|-- B
   ⟨.inheritance, .entity, [.text "<|", .run '-'], .spaced⟩,
   -- A <|.[style]d. B
   ⟨.implementation, .entity, [.text "<|", .run '.', .style, .turn, .run '.'], .near⟩,
   -- A <|.d. B and A <|.. B
   ⟨.implementation, .entity, [.text "<|", .turnedDots], .near⟩,
   -- A <|.[style] B
   ⟨.implementation, .entity, [.text "<|", .run '.', .style], .near⟩,
   -- A <|. B
   ⟨.implementation, .entity, [.text "<|", .run '.'], .spaced⟩,
   -- A *-[style]- B
   ⟨.composition, .member, [.text "*", .run '-', .style], .turned⟩,
   -- A -[style]* B
   ⟨.composition, .member, [.run '-', .style, .turn, .text "*"], .near⟩,
   ⟨.composition, .member, [.text "*--"], .spaced⟩,
   ⟨.composition, .member, [.text "--*"], .spaced⟩,
   -- A o-[style]- B
   ⟨.aggregation, .member, [.text "o", .run '-', .style], .turned⟩,
   -- A -[style]o B
   ⟨.aggregation, .member, [.run '-', .style, .turn, .text "o"], .near⟩,
   ⟨.aggregation, .member, [.text "o--"], .spaced⟩,
   ⟨.aggregation, .member, [.text "--o"], .spaced⟩,
   ⟨.aggregation, .member, [.text "o", .run '.'], .spaced⟩,
   -- A -[style]> B
   ⟨.association, .member, [.run '-', .style, .turn, .text ">"], .near⟩,
   -- A <-[style]- B
   ⟨.association, .member, [.text "<", .run '-', .style], .turned⟩,
   ⟨.association, .member, [.text "-->"], .spaced⟩,
   ⟨.association, .member, [.text "<--"], .spaced⟩,
   ⟨.dependency, .member, [.run '.', .text ">"], .spaced⟩,
   -- A -[style]- B
   ⟨.association, .member, [.run '-', .style], .turned⟩,
   ⟨.association, .member, [.text "--"], .spaced⟩,
   ⟨.nested, .entity, [.text "+--"], .spaced⟩]

/--
The relation in a line: that of the first pattern which matches anywhere, read at the leftmost place
where it matches.
-/
def find? (line : List Char) : Option Relation :=
  patterns.findSome? fun p => Scan.leftmost p.read? line

end ClassDiagram.Relation
