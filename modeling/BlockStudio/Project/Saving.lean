import BlockStudio.History.Store
import BlockStudio.Project.Folder

namespace BlockStudio

def Folder.saveSink : SaveSink Folder where
  write path contents f :=
    match f.save path contents with
    | (true, f) => (.ok (), f)
    | (false, f) => (.error "cannot write the file", f)

end BlockStudio
