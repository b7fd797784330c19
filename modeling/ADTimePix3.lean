import ADTimePix3.Mask.Geometry
import ADTimePix3.Mask.Bpc2ImgIndex
import ADTimePix3.Mask.PelIndex
import ADTimePix3.Lib.Square
import ADTimePix3.Mask.Layout
import ADTimePix3.Mask.Proofs.CoordinateProofs
import ADTimePix3.Mask.Proofs.RotateLayoutProofs
import ADTimePix3.Lib.Loops
import ADTimePix3.Mask.Draw
import ADTimePix3.Mask.Proofs.MaskIOProofs
import ADTimePix3.Img.Accumulation
import ADTimePix3.Img.Run
import ADTimePix3.Img.Proofs.AccumulationProofs
import ADTimePix3.Img.Proofs.RunningSumProofs
import ADTimePix3.Img.Proofs.SumBufferProofs
import ADTimePix3.Img.Proofs.WindowProofs
import ADTimePix3.Img.Proofs.PushProofs
import ADTimePix3.Lib.Chunks
import ADTimePix3.Lib.Memory
import ADTimePix3.Stream.Json
import ADTimePix3.Stream.LineBuffer
import ADTimePix3.Stream.NetworkClient
import ADTimePix3.Stream.JsonImage
import ADTimePix3.Stream.Pairing
import ADTimePix3.Stream.Proofs.PairingProofs
import ADTimePix3.Hst.HistogramData
import ADTimePix3.Hst.PrvHst
import ADTimePix3.Hst.Accumulation
import ADTimePix3.Hst.Run
import ADTimePix3.Stream.Worker
import ADTimePix3.Stream.Proofs.LineBufferProofs
import ADTimePix3.Stream.Proofs.NetworkClientProofs
import ADTimePix3.Stream.Message
import ADTimePix3.Stream.Proofs.WorkerProofs
import ADTimePix3.Stream.ImageFrame
import ADTimePix3.Stream.Proofs.JsonImageProofs
import ADTimePix3.Stream.Demux
import ADTimePix3.Stream.Proofs.DemuxProofs
import ADTimePix3.Hst.Proofs.RunningSumProofs
import ADTimePix3.Hst.Proofs.AccumulationProofs
import ADTimePix3.Hst.Proofs.BinningProofs
import ADTimePix3.Hst.Proofs.PushProofs
import ADTimePix3.Hst.HistFrame
import ADTimePix3.Hst.Proofs.PrvHstProofs
import ADTimePix3.Stream.Proofs.OccupancyProofs
import ADTimePix3.Stream.ReadBounds
import ADTimePix3.Stream.Proofs.BoundsProofs
import ADTimePix3.Stream.Proofs.OriginProofs
import ADTimePix3.Lib.Probing
import ADTimePix3.Acquire.TcpPath
import ADTimePix3.Acquire.Ports
import ADTimePix3.Acquire.Proofs.PortsProofs
import ADTimePix3.Serval.JsonPath
import ADTimePix3.Serval.Destination
import ADTimePix3.Serval.Proofs.JsonPathProofs
import ADTimePix3.Serval.Proofs.DestinationProofs
import ADTimePix3.Acquire.Measurement
import ADTimePix3.Acquire.Threads
import ADTimePix3.Acquire.Agreement
import ADTimePix3.Acquire.Proofs.ThreadsProofs
import ADTimePix3.Acquire.Proofs.AgreementProofs
import ADTimePix3.Acquire.Proofs.DeadlockProofs
import ADTimePix3.Acquire.Proofs.BlockingProofs
import ADTimePix3.Mask.IndexErrors
import ADTimePix3.Mask.MaskedPels
import ADTimePix3.Mask.Proofs.IndexErrorProofs
import ADTimePix3.Mask.Proofs.MaskedPelsProofs
import ADTimePix3.Mask.Proofs.VerifyCoordinateMapProofs
import ADTimePix3.Lib.MachineInt
import ADTimePix3.Mask.CheckedDraw
import ADTimePix3.Mask.Proofs.CheckedDrawProofs
import ADTimePix3.Serval.PixelConfig
import ADTimePix3.Lib.IndexCounts
import ADTimePix3.Serval.Proofs.PixelConfigProofs
import ADTimePix3.Serval.Proofs.PixelDiffProofs
import ADTimePix3.Serval.ConnectionPoll
import ADTimePix3.Serval.Proofs.ConnectionPollProofs
import ADTimePix3.Lib.Interference
import ADTimePix3.Serval.CounterGuard
import ADTimePix3.Serval.Proofs.CounterGuardProofs
import ADTimePix3.Arrays.Ownership
import ADTimePix3.Arrays.Proofs.OwnershipProofs
import ADTimePix3.Arrays.SharedParams
import ADTimePix3.Arrays.Proofs.SharedParamsProofs
import ADTimePix3.Lib.Faults
import ADTimePix3.Serval.Replies
import ADTimePix3.Serval.DetectorReplies
import ADTimePix3.Serval.AnsweredCalls
import ADTimePix3.Serval.Proofs.RepliesProofs
import ADTimePix3.Serval.Proofs.DetectorRepliesProofs
import ADTimePix3.Serval.Proofs.AnsweredCallsProofs
import ADTimePix3.Serval.Proofs.Base64Proofs
import ADTimePix3.Acquire.Proofs.TcpGrammarProofs
import ADTimePix3.Stream.ImageSize
import ADTimePix3.Stream.Proofs.ImageSizeProofs
import ADTimePix3.Hst.Proofs.TimeAxisProofs
import ADTimePix3.Serval.ChipTemperatures
import ADTimePix3.Serval.Proofs.ChipTemperaturesProofs
import ADTimePix3.Stream.BandPass
import ADTimePix3.Stream.Proofs.BandPassProofs
import ADTimePix3.Serval.JsonAgreement
import ADTimePix3.Serval.Proofs.JsonAgreementProofs
import ADTimePix3.Lib.Doubles
import ADTimePix3.Lib.Texts
import ADTimePix3.Serval.MeasurementConfig
import ADTimePix3.Serval.Proofs.MeasurementConfigProofs
import ADTimePix3.Mask.BpcBounds
import ADTimePix3.Mask.Proofs.BpcBoundsProofs
import ADTimePix3.Serval.Proofs.ThresholdListProofs
import ADTimePix3.Lib.Logs
import ADTimePix3.Stream.ReceiveLoop
import ADTimePix3.Stream.Proofs.ReceiveLoopProofs
import ADTimePix3.Lib.RecursiveMutex
import ADTimePix3.Stream.FrameLocks
import ADTimePix3.Stream.Proofs.ReceiveAgreementProofs
import ADTimePix3.Stream.Proofs.FrameLocksProofs
import ADTimePix3.Stream.Proofs.FrameCallbacksProofs
import ADTimePix3.Lib.Descriptors
import ADTimePix3.Stream.Sockets
import ADTimePix3.Stream.Proofs.SocketsProofs
import ADTimePix3.Stream.Channels
import ADTimePix3.Stream.Proofs.ChannelsProofs
import ADTimePix3.Serval.DetectorConfig
import ADTimePix3.Serval.Proofs.DetectorConfigProofs
import ADTimePix3.Acquire.Endpoints
import ADTimePix3.Acquire.Proofs.EndpointsProofs
import ADTimePix3.Stream.ImgPipeline
import ADTimePix3.Stream.Proofs.ImgPipelineProofs
import ADTimePix3.Img.Objects
import ADTimePix3.Img.Proofs.ObjectsProofs
import ADTimePix3.Hst.Objects
import ADTimePix3.Hst.Proofs.ObjectsProofs
