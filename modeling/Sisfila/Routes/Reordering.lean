import Sisfila.Framework.Reorder
import Sisfila.Routes.Moves

namespace Sisfila

/-! Bringing a fila into a given order with `VagasController#update`. -/

instance : LawfulListed Vaga where
  put_pos v := by
    have hmap : v.posicao.map (max 1)=v.posicao := by
      cases hp : v.posicao with
      | none => rfl
      | some p => simp [v.posicao_pos p hp]
    change v.comPosicao v.posicao=v
    simp only [Vaga.comPosicao,VagaBase.comPosicao,hmap]
  put_put _ _ _ := rfl

/-- The keys name vagas of the fila whose alunos are in place. -/
def Db.Nomeia (d : Db) (f : Nat) (is : List Nat) : Prop :=
  ∀ i ∈ is,∃ v ∈ d.vagasDe (some f),v.id=i ∧ (v.alunoId.bind d.alunos.find).isSome=true

theorem Db.Nomeia.moveTo {d : Db} {f : Nat} {is : List Nat} (h : d.Nomeia f is) (v : Vaga)
    (q : Option Int) :
    Nomeia { d with vagas := d.vagas.moveTo (naFila (some f)) v q } f is := by
  intro i hi
  obtain ⟨w,hw,hwi,hwa⟩ := h i hi
  have hrows := Table.filter_moveTo (S := naFila (some f)) (U := naFila (some f)) (fun _ _ => rfl)
    v q d.vagas
  have hmem := List.mem_map_of_mem (f := Table.moveRow (naFila (some f)) v q
    (d.vagas.bottom (naFila (some f))) (d.vagas.taken (naFila (some f)) v q)) hw
  refine ⟨_,hrows.symm ▸ hmem,(Table.key_moveRow _ _ _ _ _ w).trans hwi,?_⟩
  rw [Table.moveRow_of_put (g := fun w : Vaga => w.alunoId) (fun _ _ => rfl)]
  exact hwa

namespace VagasController

/-- Sends only a new position. -/
def soPosicao (q : Int) : VagaParams := { posicao := some (some q) }

/-- Asks for the vagas at `q`, `q+1`, ..., in the order given. -/
def reordena (u : Sessao) : List Nat → Int → List Rota
  | [],_ => []
  | i::is,q => .vagasUpdate u i (soPosicao q)::reordena u is (q+1)

/-- With its aluno and its fila in place, the vaga only moves. -/
theorem db_soPosicao {s : World} {u : Sessao} {v : Vaga} (hu : Ability.manageAll u=true)
    (hv : v ∈ s.db.vagas.rows) (hok : s.db.vagaValida v.toVagaBase=true) (q : Int) :
    ((Rota.vagasUpdate u v.id (soPosicao q)).prog.exec s).state.db=
      { s.db with vagas := s.db.vagas.moveTo (Db.naFila v.filaId) v (some q) } := by
  have hsame : s.db.vagas.modify v.id (soPosicao q).atribui (fun _ => rfl)=s.db.vagas := by
    apply s.db.vagas.map_eq_self
    intro w _
    split_ifs <;> rfl
  have h := db_update (s := s) u (soPosicao q) (Table.find_of_mem hv)
  rw [if_pos ⟨hu,hok⟩,Db.atualizaVaga,hsame] at h
  exact h

/-- The requests do to the list what `arrange` does. -/
theorem db_reordena {u : Sessao} {f : Fila} (hu : Ability.manageAll u=true) {is : List Nat}
    {s : World} (hf : f ∈ s.db.filas.rows) (his : s.db.Nomeia f.id is) (q : Int) :
    (runAll Rota.prog s (reordena u is q)).db=
      { s.db with vagas := s.db.vagas.arrange (Db.naFila (some f.id)) is q } := by
  induction is generalizing s q with
  | nil => rfl
  | cons i is ih =>
    obtain ⟨v,hvf,rfl,ha⟩ := his i List.mem_cons_self
    obtain ⟨hv,hfila⟩ := List.mem_filter.mp hvf
    have hfila : v.filaId=some f.id := beq_iff_eq.mp hfila
    have hok : s.db.vagaValida v.toVagaBase=true := by
      have hfind : s.db.filas.find f.id=some f := Table.find_of_mem hf
      simp [Db.vagaValida,Db.filaDe,ha,hfila,hfind]
    have hstep := db_soPosicao hu hv hok q
    rw [hfila] at hstep
    -- the next request finds the same vagas and the same alunos
    have htail : s.db.Nomeia f.id is := fun i hi => his i (List.mem_cons_of_mem _ hi)
    have hrest := ih (s := ((Rota.vagasUpdate u v.id (soPosicao q)).prog.exec s).state)
      (by rw [hstep]; exact hf) (by rw [hstep]; exact htail.moveTo v (some q)) (q+1)
    have hfind : s.db.vagas.find v.id=some v := Table.find_of_mem hv
    rw [hstep] at hrest
    rw [Table.arrange,hfind]
    exact hrest

/-- Every order of the vagas of a complete fila can be reached: the updates that send them to 1, 2,
... one after another leave each at its place, change nothing else, and the calls still to come
follow the new order from the pointer on. -/
theorem fila_reordena {s : World} {u : Sessao} {f : Fila} {is : List Nat}
    (hu : Ability.manageAll u=true) (hf : f ∈ s.db.filas.rows)
    (hc : s.db.Completa (some f.id))
    (ha : ∀ v ∈ s.db.vagasDe (some f.id),(v.alunoId.bind s.db.alunos.find).isSome=true)
    (his : is.Perm ((s.db.vagasDe (some f.id)).map (fun v => v.id))) :
    let d := (runAll Rota.prog s (reordena u is 1)).db
    d={ s.db with
        vagas := s.db.vagas.renumber (Db.naFila (some f.id))
          (fun i => some ((is.idxOf i : Int)+1)) } ∧
      d.aChamar f=is.drop f.posicao.toNat := by
  intro d
  have hnomeia : s.db.Nomeia f.id is := by
    intro i hi
    obtain ⟨v,hv,hvi⟩ := List.mem_map.mp (his.mem_iff.mp hi)
    exact ⟨v,hv,hvi,ha v hv⟩
  have hmove : d={ s.db with vagas := s.db.vagas.arrange (Db.naFila (some f.id)) is 1 } :=
    db_reordena hu hf hnomeia 1
  have hS : ∀ p w,Db.naFila (some f.id) (Listed.put p w)=Db.naFila (some f.id) w :=
    fun _ _ => rfl
  constructor
  · rw [hmove,Table.arrange_one hS hc his]
  · rw [Db.aChamar_eq,hmove]
    exact Table.keys_after_arrange hS hc his f.posicao

end VagasController

/-- Three enrolments and one call; the third then comes first, at the place already called. -/
theorem fila_reordena_tres :
    let s := runAll Rota.prog (Cenario.world Cenario.medida Table.empty)
      [.requisicao (Cenario.inscreve "a"),.requisicao (Cenario.inscreve "b"),
        .requisicao (Cenario.inscreve "c"),.requisicao (.filasProximo (Cenario.mesa 1) 1)]
    ∃ f ∈ s.db.filas.rows,s.db.aChamar f=[2,3] ∧
      (runAll Rota.prog s (VagasController.reordena (Cenario.mesa 1) [3,1,2] 1)).db.aChamar f=
        [1,2] := by
  intro s
  obtain ⟨f,hf,hfp,hach,hc,ha,his⟩ : ∃ f ∈ s.db.filas.rows,f.posicao=1 ∧ s.db.aChamar f=[2,3] ∧
      s.db.Completa (some f.id) ∧
      (∀ v ∈ s.db.vagasDe (some f.id),(v.alunoId.bind s.db.alunos.find).isSome=true) ∧
      [3,1,2].Perm ((s.db.vagasDe (some f.id)).map (fun v => v.id)) := by
    decide +kernel
  have h := VagasController.fila_reordena (by decide) hf hc ha his (u := Cenario.mesa 1)
  refine ⟨f,hf,hach,?_⟩
  rw [h.2,hfp]
  rfl

end Sisfila
